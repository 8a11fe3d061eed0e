import ApiShell.Output.Format
import ApiShell.Proofs.Decimal.Magnitude
import ApiShell.Proofs.Json.RoundTrip
import ApiShell.Proofs.Text.Utf8
import ApiShell.Response.Status

/-!
# Bodies that are shown as JSON

Whatever a body is read as can be shown as JSON, and a body of the text that is shown is read as the
same value again, with its keys in the same order (`decodeBody_write`).  This holds of a body that
is empty or no JSON as well: null and a text have JSON texts of their own.

An infinity or a value that is no number has a word in place of digits.  There are only three such
values (`Decimal.eq_of_dyadic?_eq_none`), one for each word, so these are read back as well.
-/

namespace ApiShell

namespace Json.Style

/-- A style that allows special values writes every number so that it is read back. -/
theorem readsBack_of_allowsSpecial {style : Style} (hstyle : style.allowsSpecial = true)
    (x : Float) : style.ReadsBack x := by
  cases hfinite : Decimal.dyadic? x with
  | some d => exact readsBack_of_isSome style (by rw [hfinite]; rfl)
  | none =>
    have hnumber : style.number x = .ok (numberLayout.write x) :=
      if_pos (by rw [hstyle, Bool.true_or])
    refine ⟨numberLayout.write x, hnumber, ?_⟩
    unfold Decimal.Layout.write
    rw [hfinite]
    dsimp only
    rcases Decimal.eq_of_dyadic?_eq_none hfinite with
      ⟨hnan, rfl⟩ | ⟨hnan, hsign, rfl⟩ | ⟨hnan, hsign, rfl⟩
    · rw [if_pos hnan]
      exact reads_word (w := ("NaN", .float Decimal.notANumber)) (by simp [wordValues])
    · rw [if_neg (Bool.eq_false_iff.1 hnan), if_neg (Bool.eq_false_iff.1 hsign)]
      exact reads_word (w := ("Infinity", .float Decimal.infinity)) (by simp [wordValues])
    · rw [if_neg (Bool.eq_false_iff.1 hnan), if_pos hsign]
      exact reads_word (w := ("-Infinity", .float (-Decimal.infinity))) (by simp [wordValues])

end Json.Style

namespace Response

/-- What a body is read as is a value that a JSON text can be read as. -/
theorem isTree_of_decodeBody {body : List UInt8} {log log' : List LogRecord} {v : Value}
    (h : (decodeBody body).run log = (v, log')) : v.IsTree := by
  unfold decodeBody at h
  split at h
  · cases h
    exact .scalar trivial
  · dsimp only [] at h
    split at h
    · next hread =>
      cases h
      exact Json.isTree_of_readText hread
    · cases h
      exact .scalar trivial

/-- A body of a JSON text is read as what the text says. -/
theorem decodeBody_utf8 {text : String} {v : Value} (hne : text.toList ≠ [])
    (h : Json.readText text = .ok v) (log : List LogRecord) :
    (decodeBody (Text.utf8 text.toList)).run log = (v, log) := by
  have hempty : (Text.utf8 text.toList).isEmpty = false := by
    obtain ⟨c, cs, hcs⟩ := List.exists_cons_of_ne_nil hne
    obtain ⟨first, tail, hbytes, -⟩ := Text.firstChar_utf8EncodeChar c
    rw [hcs, Text.utf8_cons, hbytes]
    rfl
  unfold decodeBody
  rw [hempty, if_neg Bool.false_ne_true]
  dsimp only []
  rw [Text.ofUtf8Lenient_utf8, String.ofList_toList, h]
  rfl

end Response

end ApiShell
