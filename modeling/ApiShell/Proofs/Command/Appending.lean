import ApiShell.Command.Tree
import ApiShell.Proofs.Run

/-!
# Compiling only appends records

Every part of compiling a command tree appends the records that it writes and answers as if none
had been written before.  What a part answers can thus be read on its own, and a sequence of parts
answers the sequence of their answers.
-/

namespace ApiShell.Command

open Run (AppendsOnly)
open Spec (Endpoint Parameter Schema)

theorem appendsOnly_orStop {α : Type} (x : Except Defect α) : AppendsOnly (orStop x) := by
  cases x with
  | error d => exact .stop (.defect d)
  | ok a => exact .pure a

/-- A default that is not one of the flag's kind leaves a record. -/
theorem appendsOnly_declaredDefault (kind : FlagKind) (raw : Value) :
    AppendsOnly (declaredDefault? kind raw) := by
  unfold declaredDefault?
  split
  · exact .pure none
  cases kind with
  | integer =>
    dsimp only
    cases defaultInteger? raw with
    | some n => exact .pure _
    | none =>
      dsimp only
      split
      · exact .pure none
      · exact (AppendsOnly.note .debug _).bind fun _ => .pure none
  | bool =>
    dsimp only
    cases defaultBool? raw with
    | some b => exact .pure _
    | none => exact (AppendsOnly.note .debug _).bind fun _ => .pure none
  | stringList =>
    dsimp only
    split
    · exact .pure _
    · exact .stop _
  | string =>
    dsimp only
    cases defaultText raw with
    | ok s => exact .pure _
    | error d => exact .stop _

theorem appendsOnly_schemaDefault (kind : FlagKind) (schema? : Option Schema) :
    AppendsOnly (schemaDefault? kind schema?) :=
  appendsOnly_declaredDefault kind _

theorem appendsOnly_argumentFor (p : Parameter) (taken : List String) :
    AppendsOnly (argumentFor p taken) :=
  (appendsOnly_orStop (helpFor p)).bind fun _ => .pure _

theorem appendsOnly_flagFor (p : Parameter) (taken : List String) :
    AppendsOnly (flagFor p taken) :=
  (appendsOnly_orStop (helpFor p)).bind fun _ =>
    (appendsOnly_schemaDefault _ _).bind fun _ => .pure _

/-- A parameter that is left out leaves a record. -/
theorem appendsOnly_add (name : String) (s : Sorted) (p : Parameter) :
    AppendsOnly (s.add name p) := by
  unfold Sorted.add
  dsimp only
  by_cases hseen : s.seen.contains (p.name, p.location)
  · rw [if_pos hseen]
    exact (AppendsOnly.note .warning _).bind fun _ => .pure s
  rw [if_neg hseen]
  by_cases hpath : p.location = .path
  · rw [if_pos hpath]
    exact (appendsOnly_argumentFor p _).bind fun _ => .pure _
  rw [if_neg hpath]
  cases flagRefusal? p with
  | some refusal => exact (AppendsOnly.note .warning _).bind fun _ => .pure _
  | none =>
    refine (appendsOnly_flagFor p _).bind fun flag => ?_
    cases flag.optionNames.find? s.optionNames.contains with
    | some clash => exact (AppendsOnly.note .warning _).bind fun _ => .pure _
    | none => exact .pure _

theorem appendsOnly_compileEndpoint (e : Endpoint) : AppendsOnly (compileEndpoint e) :=
  (AppendsOnly.foldlM (appendsOnly_add (commandName e)) e.parameters {}).bind fun _ => .pure _

/-- Put the command of an endpoint after those of its group, unless its name is taken. -/
def putCommand (group : String) (commands : List Leaf) (e : Endpoint) (c : Leaf) :
    Run (List Leaf) := do
  if commands.any (·.name == c.name) then
    let method := e.method.name
    note .warning
      s!"Skipping {method} {e.path}: command '{c.name}' already exists under '{group}'"
    return commands
  return commands ++ [c]

theorem addCommand_eq_bind (group : String) (commands : List Leaf) (e : Endpoint) :
    addCommand group commands e = compileEndpoint e >>= putCommand group commands e := rfl

/-- A command whose name is taken leaves a record. -/
theorem appendsOnly_putCommand (group : String) (commands : List Leaf) (e : Endpoint) (c : Leaf) :
    AppendsOnly (putCommand group commands e c) := by
  unfold putCommand
  by_cases htaken : commands.any (·.name == c.name)
  · rw [if_pos htaken]
    exact (AppendsOnly.note .warning _).bind fun _ => .pure commands
  · rw [if_neg htaken]
    exact .pure _

theorem appendsOnly_addCommand (group : String) (commands : List Leaf) (e : Endpoint) :
    AppendsOnly (addCommand group commands e) :=
  (appendsOnly_compileEndpoint e).bind (appendsOnly_putCommand group commands e)

theorem appendsOnly_compileGroup (tagHelp : List (String × String))
    (group : String × List Endpoint) : AppendsOnly (compileGroup tagHelp group) :=
  (AppendsOnly.foldlM (appendsOnly_addCommand group.1) group.2 []).bind fun _ => .pure _

end ApiShell.Command
