/-!
# Entries under text keys

A list of entries that is looked up by key and keeps the order in which its keys were first put.
-/

namespace ApiShell.Entries

variable {α : Type}

/-- The entry under a key. -/
def get? (entries : List (String × α)) (key : String) : Option α :=
  (entries.find? (·.1 == key)).map Prod.snd

/-- Put an entry: an old one is replaced in its place, a new one goes to the end. -/
def put (entries : List (String × α)) (key : String) (a : α) : List (String × α) :=
  if entries.any (·.1 == key) then entries.map fun e => if e.1 == key then (key, a) else e
  else entries ++ [(key, a)]

/-- Take the entry under a key away. -/
def erase (entries : List (String × α)) (key : String) : List (String × α) :=
  entries.filter (·.1 != key)

/-- The entries that a list of assignments leaves behind. -/
def ofList (assignments : List (String × α)) : List (String × α) :=
  assignments.foldl (fun entries a => put entries a.1 a.2) []

end ApiShell.Entries
