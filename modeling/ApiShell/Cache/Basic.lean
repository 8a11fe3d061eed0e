import ApiShell.Cache.Entry
import ApiShell.Json.Reader
import ApiShell.Json.Writer

/-!
# The cache of descriptions

A cache has a store, which outlives it and may be shared, and an index of the entries that it has seen
itself.  An entry whose time is over is taken away when it is looked up.  Between runs the entries of a
store are written as one JSON object.
-/

namespace ApiShell

namespace Cache

/-- What is done with a store. -/
inductive Action where
  | get
  | set
  | delete
deriving DecidableEq, Repr

/-- Values under keys.  Some actions may have stopped working. -/
structure Store where
  entries : List (String × Value)
  broken : List Action

namespace Store

/-- The store without entries. -/
def empty : Store := ⟨[], []⟩

/-- The number of entries. -/
def size (s : Store) : Nat := s.entries.length

/-- The defect of an action that has stopped working. -/
def failure : Defect := .file .other

/-- The value under a key.  Null is no value. -/
def get (s : Store) (key : String) : Except Defect (Option Value) :=
  if s.broken.contains .get then .error failure
  else .ok ((Entries.get? s.entries key).filter fun v => !v.isNull)

/-- Put a value under a key. -/
def put (s : Store) (key : String) (v : Value) : Store :=
  { s with entries := Entries.put s.entries key v }

/-- Put a value under a key, if that works. -/
def set (s : Store) (key : String) (v : Value) : Except Defect Store :=
  if s.broken.contains .set then .error failure else .ok (s.put key v)

/-- Take away what is under a key, if that works. -/
def delete (s : Store) (key : String) : Except Defect Store :=
  if s.broken.contains .delete then .error failure
  else .ok { s with entries := Entries.erase s.entries key }

/-- The name of the file that a store is kept in. -/
def fileName : String := "entries.json"

/-- The text of a store. -/
def text (s : Store) : String :=
  match Json.asciiLine.write (.ofFields s.entries) with
  | .ok line => line ++ "\n"
  | .error _ => "\x7b\x7d\n"

/-- The store that a text writes.  A text that writes none is an empty store. -/
def ofText (s : String) : Store :=
  match Json.readText s with
  | .ok (.mapping fields) => ⟨fields.filterMap fun f => match f.1 with
      | .text key => some (key, f.2)
      | _ => none, []⟩
  | _ => .empty

end Store

end Cache

/-- A cache of descriptions: the entries seen so far and the store. -/
structure SpecCache where
  index : List (String × Cache.Entry)
  store : Cache.Store

/-- Computations on a cache that may end early and keep what they did before. -/
abbrev CacheTask := ExceptT Defect (StateT SpecCache Logger)

namespace SpecCache

open Cache (Entry Store)

/-- The cache on a store that has seen no entry yet. -/
def onStore (store : Store) : SpecCache := ⟨[], store⟩

/-- The name of the directory of the store in the directory for caches. -/
def storeName : String := "specs"

/-- A step that may fail. -/
def orStop {α : Type} (r : Except Defect α) : CacheTask α :=
  match r with
  | .ok a => pure a
  | .error d => throw d

/-- Put an entry into the index. -/
def remember (key : String) (entry : Entry) : CacheTask Unit :=
  modify fun c => { c with index := Entries.put c.index key entry }

/-- Take an entry away, from the index first. -/
def delete (key : String) : CacheTask Unit := do
  modify fun c => { c with index := Entries.erase c.index key }
  let store ← orStop ((← get).store.delete key)
  modify fun c => { c with store }

/-- The cache without its entries. -/
def cleared (c : SpecCache) : SpecCache := ⟨[], { c.store with entries := [] }⟩

/-- The entry that the index or the store has under a key. -/
def find (key : String) : CacheTask (Option Entry) := do
  let c ← get
  match Entries.get? c.index key with
  | some entry => return some entry
  | none => match ← orStop (c.store.get key) with
    | none => return none
    | some v => orStop (Checked.orDefect ((Entry.check v).map some))

/-- How much of a key is shown. -/
def shownKey (key : String) : String := String.ofList (key.toList.take 12)

/-- The entry under a key, unless its time is over: then it is taken away. -/
def lookup (now : Time.Moment) (key : String) : CacheTask (Option Entry) := do
  match ← find key with
  | none => return none
  | some entry =>
    if ← orStop (entry.isExpired now) then
      let shown := shownKey key
      let moment := entry.expiresAt.text " "
      record .debug s!"Cache entry {shown} expired at {moment}"
      delete key
      return none
    else
      remember key entry
      return some entry

/-- Keep a description for a while. -/
def keep (now : Time.Moment) (d : Spec.Description) (ttl : Time.Duration) : CacheTask Entry := do
  let entry ← orStop (Entry.make now d ttl)
  let v ← orStop entry.plain
  let store ← orStop ((← get).store.set entry.key v)
  modify fun c => { c with store }
  remember entry.key entry
  return entry

end SpecCache

end ApiShell
