import Sessions.Files.Folder
import Sessions.Freshness.AllowList
import Sessions.Yaml.Shape

/-!
# Sessions.Freshness.File

Allow-lists in files. A list whose predicate can not be used is refused when it is read.
-/

namespace Sessions.Freshness

/-- Why an allow-list could not be read. -/
inductive AllowListError where
  | file (e : FileError)
  | unreadable (e : Yaml.Error)
  | predicate (reason : String)

def AllowListError.message : AllowListError → String
  | .file e => e.message
  | .unreadable e => e.message
  | .predicate reason => reason

namespace AllowList

open Yaml.Shape in
def sourceShape : Yaml.Node → Except Yaml.Error Source :=
  record ⟨"", ""⟩ (fun s key n => do
    match key with
    | "service" => return { s with service := ← text n }
    | "operation" => return { s with operation := ← text n }
    | _ => return s) ⟨"", ""⟩

open Yaml.Shape in
def field (a : AllowList) (key : String) (n : Yaml.Node) : Except Yaml.Error AllowList := do
  match key with
  | "sources" => return { a with sources := (← list? sourceShape n).getD [] }
  | "predicate" => return { a with predicate := ← text n }
  | _ => return a

/-- Reads an allow-list; what it does not mention is empty. -/
def shape : Yaml.Node → Except Yaml.Error AllowList :=
  Yaml.Shape.record {} field {}

/-- Reads an allow-list from its text. -/
def ofText (text : String) : Except AllowListError AllowList :=
  match Yaml.Shape.document {} shape text with
  | .error e => .error (.unreadable e)
  | .ok a =>
    match a.compileError? with
    | some reason => .error (.predicate reason)
    | none => .ok a

/-- Reads an allow-list from a file. -/
def ofFile (f : Folder) (name : String) : Except AllowListError AllowList :=
  match f.read name with
  | .error e => .error (.file e)
  | .ok text => ofText text

/-- The list as a value: what is empty is left out. -/
def toDatum (a : AllowList) : Datum :=
  .map ((if a.sources.isEmpty then [] else
      [("sources", .list (a.sources.map fun s =>
        .map [("service", .text s.service), ("operation", .text s.operation)]))]) ++
    (if a.predicate = "" then [] else [("predicate", .text a.predicate)]))

end AllowList

end Sessions.Freshness
