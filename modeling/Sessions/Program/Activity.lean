import Sessions.Program.Path

/-!
# Sessions.Program.Activity

Activities and programs. An activity is a statement; a program is a list of definitions, which give
activities a name, and declarations, which have no effect on what is initialised.

A place where an activity may stand and none does is `Activity.missing`.
-/

namespace Sessions

mutual

inductive Activity where
  /-- No activity stands here. -/
  | missing
  /-- One child after the other. -/
  | sequence (loc : Location) (children : List Activity)
  /-- All children, in no relative order. -/
  | parallel (loc : Location) (children : List Activity)
  /-- Waits for one of several inputs and goes on with the branch of the one that came. -/
  | choice (loc : Location) (branches : List Branch)
  /-- The first arm whose condition holds, or else the last activity. -/
  | cond (loc : Location) (arms : List Arm) (otherwise : Activity)
  | whileLoop (loc : Location) (cond : Expr) (body : Activity)
  /-- A counting loop: `first` runs once, `post` after each turn. -/
  | forLoop (loc : Location) (first : Activity) (cond : Expr) (post body : Activity)
  /-- Runs the body for each child of a path. -/
  | forEach (loc : Location) (key target : Option Path) (body : Activity)
  /-- Runs a definition. -/
  | call (loc : Location) (name : String)
  /-- Receives a message. -/
  | oneWay (loc : Location) (operation : String) (input : Option Path)
  /-- Receives a request, runs the handler and replies. -/
  | requestResponse (loc : Location) (operation : String) (input : Option Path) (output : Expr)
      (handler : Activity)
  /-- Sends a message. -/
  | notification (loc : Location) (operation port : String) (output : Expr)
  /-- Sends a request and stores the reply. -/
  | solicitResponse (loc : Location) (operation port : String) (output : Expr)
      (input : Option Path)
  /-- `target op value`, with the operator `=` or a compound one. -/
  | assign (loc : Location) (target : Path) (op : String) (value : Expr)
  | increment (loc : Location) (path : Path) (pre decrement : Bool)
  /-- A named scope of fault handling. -/
  | scope (loc : Location) (name : String) (body : Activity)
  /-- A critical section. -/
  | synchronized (loc : Location) (id : String) (body : Activity)
  /-- Makes the left path an alias of the right one. -/
  | pointer (loc : Location) (left right : Path)
  /-- Copies the tree at the right path to the left one. -/
  | deepCopy (loc : Location) (left right : Path)
  /-- Removes a path. -/
  | undef (loc : Location) (target : Path)
  /-- Installs fault handlers in the current scope. -/
  | install (loc : Location) (handlers : List Handler)
  /-- Runs the body in instances of its own. -/
  | spawn (loc : Location) (body : Activity)
  | nothing (loc : Location)
  | exit (loc : Location)
  | throw (loc : Location) (fault : String)
  | compensate (loc : Location) (scope : String)
  | linkIn (loc : Location) (link : String)
  | linkOut (loc : Location) (link : String)
  /-- Runs code that is supplied as a value. -/
  | run (loc : Location) (code : Expr)
  | currentHandler (loc : Location)

/-- An input and what follows it. -/
structure Branch where
  guard : Activity
  body : Activity

/-- A condition and what runs under it. -/
structure Arm where
  cond : Expr
  body : Activity

/-- What runs when a fault is raised. -/
structure Handler where
  fault : String
  body : Activity

end

instance : Inhabited Activity := ⟨.missing⟩

/-- Where the activity stands. -/
def Activity.loc : Activity → Location
  | .missing => {}
  | .sequence l _ => l
  | .parallel l _ => l
  | .choice l _ => l
  | .cond l _ _ => l
  | .whileLoop l _ _ => l
  | .forLoop l _ _ _ _ => l
  | .forEach l _ _ _ => l
  | .call l _ => l
  | .oneWay l _ _ => l
  | .requestResponse l _ _ _ _ => l
  | .notification l _ _ _ => l
  | .solicitResponse l _ _ _ _ => l
  | .assign l _ _ _ => l
  | .increment l _ _ _ => l
  | .scope l _ _ => l
  | .synchronized l _ _ => l
  | .pointer l _ _ => l
  | .deepCopy l _ _ => l
  | .undef l _ => l
  | .install l _ => l
  | .spawn l _ => l
  | .nothing l => l
  | .exit l => l
  | .throw l _ => l
  | .compensate l _ => l
  | .linkIn l _ => l
  | .linkOut l _ => l
  | .run l _ => l
  | .currentHandler l => l

/-- A named activity. -/
structure Definition where
  loc : Location
  name : String
  body : Activity
deriving Inhabited

/-- Something a program declares: a port, a type, an operation. -/
structure Declaration where
  loc : Location
  what : String
  name : String
deriving DecidableEq, Inhabited

/-- A top-level item of a program. -/
inductive Item where
  | definition (d : Definition)
  | declaration (d : Declaration)

/-- Definitions and declarations in the order of the source. -/
structure Program where
  loc : Location
  items : List Item
deriving Inhabited

namespace Program

/-- The definitions in the order of the source. -/
def definitions (p : Program) : List Definition :=
  p.items.filterMap fun
    | .definition d => some d
    | .declaration _ => none

end Program

/-- Keeps the first definition of each name. -/
def firstDefinitions : List Definition → List Definition
  | [] => []
  | d :: rest => d :: (firstDefinitions rest).filter fun e => e.name ≠ d.name

/-- The names of the definitions that an earlier one of the same name hides, in order. -/
def hiddenDefinitions (seen : List String) : List Definition → List String
  | [] => []
  | d :: rest =>
    if seen.contains d.name then d.name :: hiddenDefinitions seen rest
    else hiddenDefinitions (d.name :: seen) rest

end Sessions
