import BundlePlan.Toml.Value

/-! A document under construction. Every table remembers how it came about, because that decides
who may still add to it: a header opens a table once and only if it was implied by the header of
a table below it; a dotted key adds to tables made by dotted keys, and passes through implied
ones; finished values take nothing more. -/
namespace BundlePlan.Toml

inductive Origin
  | header
  | implied
  | dotted
deriving DecidableEq

inductive Node
  | done (value : Value)
  | table (origin : Origin) (entries : List (String × Node))
  | tables (elements : List (List (String × Node)))

abbrev Draft := List (String × Node)

mutual

def Node.value : Node → Value
  | .done value => value
  | .table _ entries => .table (Draft.values entries)
  | .tables elements => .array (Draft.elementValues elements)

def Draft.values : List (String × Node) → List (String × Value)
  | [] => []
  | (key, node) :: rest => (key, node.value) :: Draft.values rest

def Draft.elementValues : List (List (String × Node)) → List Value
  | [] => []
  | entries :: rest => .table (Draft.values entries) :: Draft.elementValues rest

end

namespace Draft

def find? (key : String) (draft : Draft) : Option Node :=
  (List.find? (fun entry => entry.1 == key) draft).map Prod.snd

def put (key : String) (node : Node) : Draft → Draft
  | [] => [(key, node)]
  | entry :: rest =>
    if key < entry.1 then (key, node) :: entry :: rest
    else if entry.1 = key then (key, node) :: rest
    else entry :: put key node rest

/-- Changes the table at the end of `path`, making the tables on the way that are missing. With
`dotted` the path is that of a dotted key, otherwise that of a header; an array of tables is
passed through its last element. -/
def change (dotted : Bool) (path : List String) (action : Draft → Except Fault Draft)
    (draft : Draft) : Except Fault Draft :=
  match path with
  | [] => action draft
  | key :: rest =>
    match find? key draft with
    | none => do
      let inner ← change dotted rest action []
      return put key (.table (if dotted then .dotted else .implied) inner) draft
    | some (.table origin entries) => do
      if dotted && (origin = .header || (origin = .implied && rest.isEmpty)) then
        throw (.duplicateKey key)
      let inner ← change dotted rest action entries
      return put key (.table origin inner) draft
    | some (.tables elements) => do
      if dotted && rest.isEmpty then throw (.duplicateKey key)
      let inner ← change dotted rest action (elements.getLast?.getD [])
      return put key (.tables (elements.dropLast ++ [inner])) draft
    | some (.done _) => throw (.notExtensible key)

def add (key : String) (value : Value) (draft : Draft) : Except Fault Draft :=
  match find? key draft with
  | none => .ok (put key (.done value) draft)
  | some _ => .error (.duplicateKey key)

def assign (path : List String) (value : Value) (draft : Draft) : Except Fault Draft :=
  match path.getLast? with
  | none => .error .expectedKey
  | some key => change true path.dropLast (add key value) draft

def openTable (path : List String) (draft : Draft) : Except Fault Draft :=
  match path.getLast? with
  | none => .error .expectedKey
  | some key =>
    change false path.dropLast (fun entries =>
      match find? key entries with
      | none => .ok (put key (.table .header []) entries)
      | some (.table .implied inner) => .ok (put key (.table .header inner) entries)
      | some _ => .error (.duplicateKey key)) draft

/-- Adds an empty element to the array of tables of a doubled header. -/
def openElement (path : List String) (draft : Draft) : Except Fault Draft :=
  match path.getLast? with
  | none => .error .expectedKey
  | some key =>
    change false path.dropLast (fun entries =>
      match find? key entries with
      | none => .ok (put key (.tables [[]]) entries)
      | some (.tables elements) => .ok (put key (.tables (elements ++ [[]])) entries)
      | some _ => .error (.duplicateKey key)) draft

end Draft
end BundlePlan.Toml
