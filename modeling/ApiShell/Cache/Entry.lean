import ApiShell.Encoding.Sha256
import ApiShell.Json.Plain
import ApiShell.Spec.Content
import ApiShell.Time.Stamp

/-!
# Cache entries

An entry keeps a description under the digest of its location until a moment that was fixed when it was
made.  An entry is stored in plain form and checked when it is read back.
-/

namespace ApiShell.Cache

/-- The key of a location. -/
def keyOf (location : String) : String := Encoding.Sha256.hexDigest (Text.utf8 location.toList)

/-- A description that is kept, and until when. -/
structure Entry where
  key : String
  location : String
  version : String
  document : List (String × Value)
  createdAt : Time.Moment
  expiresAt : Time.Moment

namespace Entry

/-- The description that an entry keeps. -/
def description (e : Entry) : Spec.Description := ⟨e.location, e.version, e.document⟩

/-- The entry of a description, made now and kept for a while. -/
def make (now : Time.Moment) (d : Spec.Description) (ttl : Time.Duration) : Except Defect Entry :=
  match Time.Moment.ofInstant? (now.instant + ttl.micros) with
  | some expiresAt => .ok ⟨keyOf d.location, d.location, d.version, d.document, now, expiresAt⟩
  | none => .error .outOfRange

/-- The stored form of an entry. -/
def plain (e : Entry) : Except Defect Value :=
  (Value.ofFields [("key", .text e.key), ("location", .text e.location),
    ("openapi_version", .text e.version), ("document", .ofFields e.document),
    ("created_at", .scalar (.moment e.createdAt)),
    ("expires_at", .scalar (.moment e.expiresAt))]).plain

/-- Check a field of a stored entry, which must be there. -/
def field {α : Type} (fields : List (Scalar × Value)) (name : String)
    (check : List String → Value → Checked α) : Checked α :=
  match Value.field? fields name with
  | some v => check [name] v
  | none => Checked.fault [name] "missing"

/-- Check a stored entry. -/
def check : Value → Checked Entry
  | .mapping fields =>
    let checked := (field fields "key" Checked.text).map Entry.mk
    let checked := Checked.next checked (field fields "location" Checked.text)
    let checked := Checked.next checked (field fields "openapi_version" Checked.text)
    let checked := Checked.next checked
      (field fields "document" fun _ v => Spec.Description.checkDocument v)
    let checked := Checked.next checked (field fields "created_at" Checked.moment)
    Checked.next checked (field fields "expires_at" Checked.moment)
  | _ => Checked.fault [] "model_type"

/-- Whether the time of an entry is over.  Only moments with a distance to universal time can be
compared with the present one. -/
def isExpired (e : Entry) (now : Time.Moment) : Except Defect Bool :=
  if e.expiresAt.offset.isSome then .ok (e.expiresAt.instant < now.instant)
  else .error .wrongKind

end Entry

end ApiShell.Cache
