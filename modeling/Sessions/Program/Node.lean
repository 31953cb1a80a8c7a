import Sessions.Program.Activity

/-!
# Sessions.Program.Node

The nodes of a program and the walk over them. `Node.visit enter n` lists the nodes below and
including `n` in depth-first order, each before its children; the children of a node that `enter`
refuses are skipped. A place where nothing stands is no node.
-/

namespace Sessions

/-- An element of a program. -/
inductive Node where
  | program (p : Program)
  | definition (d : Definition)
  | declaration (d : Declaration)
  | activity (p : Activity)
  | expr (e : Expr)

/-- Where the node stands. -/
def Node.loc : Node → Location
  | .program p => p.loc
  | .definition d => d.loc
  | .declaration d => d.loc
  | .activity p => p.loc
  | .expr e => e.loc

/-- A node before its children, which follow only when the walk enters the node. -/
def Node.enter (enter : Node → Bool) (n : Node) (children : List Node) : List Node :=
  n :: if enter n then children else []

mutual

def Expr.visit (enter : Node → Bool) : Expr → List Node
  | .missing => []
  | .binary l op a b =>
    Node.enter enter (.expr (.binary l op a b)) (a.visit enter ++ b.visit enter)
  | .all l es => Node.enter enter (.expr (.all l es)) (Expr.visitAll enter es)
  | .any l es => Node.enter enter (.expr (.any l es)) (Expr.visitAll enter es)
  | .not l e => Node.enter enter (.expr (.not l e)) (e.visit enter)
  | .compare l op a b =>
    Node.enter enter (.expr (.compare l op a b)) (a.visit enter ++ b.visit enter)
  | .cast l t e => Node.enter enter (.expr (.cast l t e)) (e.visit enter)
  | .constant l v => [.expr (.constant l v)]
  | .var l p => [.expr (.var l p)]
  | .fresh l => [.expr (.fresh l)]
  | .increment l p pre decrement => [.expr (.increment l p pre decrement)]
  | .isType l c p => [.expr (.isType l c p)]
  | .size l p => [.expr (.size l p)]

def Expr.visitAll (enter : Node → Bool) : List Expr → List Node
  | [] => []
  | e :: rest => e.visit enter ++ Expr.visitAll enter rest

end

mutual

def Activity.visit (enter : Node → Bool) : Activity → List Node
  | .missing => []
  | .sequence l ps => Node.enter enter (.activity (.sequence l ps)) (Activity.visitAll enter ps)
  | .parallel l ps => Node.enter enter (.activity (.parallel l ps)) (Activity.visitAll enter ps)
  | .choice l bs => Node.enter enter (.activity (.choice l bs)) (Branch.visitAll enter bs)
  | .cond l arms p =>
    Node.enter enter (.activity (.cond l arms p)) (Arm.visitAll enter arms ++ p.visit enter)
  | .whileLoop l c p =>
    Node.enter enter (.activity (.whileLoop l c p)) (c.visit enter ++ p.visit enter)
  | .forLoop l first c post body =>
    Node.enter enter (.activity (.forLoop l first c post body))
      (first.visit enter ++ c.visit enter ++ post.visit enter ++ body.visit enter)
  | .forEach l k t p => Node.enter enter (.activity (.forEach l k t p)) (p.visit enter)
  | .requestResponse l o i e p =>
    Node.enter enter (.activity (.requestResponse l o i e p)) (e.visit enter ++ p.visit enter)
  | .notification l o port e =>
    Node.enter enter (.activity (.notification l o port e)) (e.visit enter)
  | .solicitResponse l o port e i =>
    Node.enter enter (.activity (.solicitResponse l o port e i)) (e.visit enter)
  | .assign l t op e => Node.enter enter (.activity (.assign l t op e)) (e.visit enter)
  | .scope l n p => Node.enter enter (.activity (.scope l n p)) (p.visit enter)
  | .synchronized l id p => Node.enter enter (.activity (.synchronized l id p)) (p.visit enter)
  | .install l hs => Node.enter enter (.activity (.install l hs)) (Handler.visitAll enter hs)
  | .spawn l p => Node.enter enter (.activity (.spawn l p)) (p.visit enter)
  | .run l e => Node.enter enter (.activity (.run l e)) (e.visit enter)
  | .call l n => [.activity (.call l n)]
  | .oneWay l o i => [.activity (.oneWay l o i)]
  | .increment l p pre decrement => [.activity (.increment l p pre decrement)]
  | .pointer l a b => [.activity (.pointer l a b)]
  | .deepCopy l a b => [.activity (.deepCopy l a b)]
  | .undef l t => [.activity (.undef l t)]
  | .nothing l => [.activity (.nothing l)]
  | .exit l => [.activity (.exit l)]
  | .throw l f => [.activity (.throw l f)]
  | .compensate l s => [.activity (.compensate l s)]
  | .linkIn l k => [.activity (.linkIn l k)]
  | .linkOut l k => [.activity (.linkOut l k)]
  | .currentHandler l => [.activity (.currentHandler l)]

def Activity.visitAll (enter : Node → Bool) : List Activity → List Node
  | [] => []
  | p :: rest => p.visit enter ++ Activity.visitAll enter rest

def Branch.visitAll (enter : Node → Bool) : List Branch → List Node
  | [] => []
  | ⟨guard, body⟩ :: rest => guard.visit enter ++ body.visit enter ++ Branch.visitAll enter rest

def Arm.visitAll (enter : Node → Bool) : List Arm → List Node
  | [] => []
  | ⟨cond, body⟩ :: rest => cond.visit enter ++ body.visit enter ++ Arm.visitAll enter rest

def Handler.visitAll (enter : Node → Bool) : List Handler → List Node
  | [] => []
  | ⟨_, body⟩ :: rest => body.visit enter ++ Handler.visitAll enter rest

end

namespace Node

def visitItem (enter : Node → Bool) : Item → List Node
  | .definition d => Node.enter enter (.definition d) (d.body.visit enter)
  | .declaration d => [.declaration d]

/-- The nodes from this one down, in depth-first order. -/
def visit (enter : Node → Bool) : Node → List Node
  | .program p => Node.enter enter (.program p) (p.items.flatMap (visitItem enter))
  | .definition d => visitItem enter (.definition d)
  | .declaration d => visitItem enter (.declaration d)
  | .activity p => p.visit enter
  | .expr e => e.visit enter

/-- Every node from this one down. -/
def all (n : Node) : List Node :=
  n.visit fun _ => true

end Node

end Sessions
