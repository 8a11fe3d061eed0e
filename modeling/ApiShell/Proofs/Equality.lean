import ApiShell.Value

/-!
# Equality of values

Whether two values are the same can be computed: scalar by scalar, through lists, pairs and mappings.
-/

namespace ApiShell.Value

mutual

/-- The values are the same. -/
def agrees : Value → Value → Bool
  | .scalar s, .scalar t => s = t
  | .set ms, .set ns => ms = ns
  | .pair a b, .pair c d => agrees a c && agrees b d
  | .list vs, .list ws => agreeItems vs ws
  | .mapping fs, .mapping gs => agreeFields fs gs
  | _, _ => false

/-- The items are the same. -/
def agreeItems : List Value → List Value → Bool
  | [], [] => true
  | v :: vs, w :: ws => agrees v w && agreeItems vs ws
  | _, _ => false

/-- The fields are the same. -/
def agreeFields : List (Scalar × Value) → List (Scalar × Value) → Bool
  | [], [] => true
  | (k, v) :: fs, (l, w) :: gs => k = l && agrees v w && agreeFields fs gs
  | _, _ => false

end

mutual

theorem agrees_iff : ∀ v w : Value, agrees v w = true ↔ v = w
  | .scalar s, w => by cases w <;> simp [agrees]
  | .set ms, w => by cases w <;> simp [agrees]
  | .pair a b, w => by
    cases w with
    | pair c d => simp [agrees, agrees_iff a, agrees_iff b]
    | _ => simp [agrees]
  | .list vs, w => by
    cases w with
    | list ws => simp [agrees, agreeItems_iff vs]
    | _ => simp [agrees]
  | .mapping fs, w => by
    cases w with
    | mapping gs => simp [agrees, agreeFields_iff fs]
    | _ => simp [agrees]

theorem agreeItems_iff : ∀ vs ws : List Value, agreeItems vs ws = true ↔ vs = ws
  | [], ws => by cases ws <;> simp [agreeItems]
  | v :: vs, ws => by
    cases ws with
    | nil => simp [agreeItems]
    | cons w ws => simp [agreeItems, agrees_iff v, agreeItems_iff vs]

theorem agreeFields_iff : ∀ fs gs : List (Scalar × Value), agreeFields fs gs = true ↔ fs = gs
  | [], gs => by cases gs <;> simp [agreeFields]
  | (k, v) :: fs, gs => by
    cases gs with
    | nil => simp [agreeFields]
    | cons g gs => simp [agreeFields, Prod.ext_iff, agrees_iff v, agreeFields_iff fs]

end

instance : DecidableEq Value := fun v w => decidable_of_iff _ (agrees_iff v w)

end ApiShell.Value
