import Warband.Settings.Check
import Warband.Settings.Table
import Warband.Toml.Reader

/-!
# Settings from a document

A configuration document has a table for each section of settings, with a field
for each setting that differs from its default. Names that are not settings are
ignored. A section may also be an array of its first fields in order, and a bare
date counts as a section without fields. Settings that are read must be
acceptable.
-/
namespace Warband.Settings

open Toml

/-- Writes a setting from a value of its type. Whole numbers serve as numbers of
any kind, if they are in range. -/
def Field.read? (s : Settings) : Field → Node → Option Settings
  | number _ _ set, .integer n => some (set (Float32.ofInt n) s)
  | number _ _ set, .float x => some (set x.toFloat32 s)
  | count _ _ set, .integer n => if 0 ≤ n then some (set n.toNat s) else none
  | level _ _ set, .integer n =>
    if 0 ≤ n ∧ n < 256 then some (set (UInt8.ofNat n.toNat) s) else none
  | flag _ _ set, .boolean b => some (set b s)
  | _, _ => none

/-- Writes the settings of a section that a table has fields for. -/
def readTable? (fields : List Field) (table : Fields) (s : Settings) : Option Settings :=
  fields.foldlM
    (fun s field =>
      match table.lookup field.name with
      | some node => field.read? s node
      | none => some s)
    s

/-- Writes the first settings of a section from values in order. -/
def readItems? (fields : List Field) (items : List Node) (s : Settings) : Option Settings :=
  (fields.zip items).foldlM (fun s (field, node) => field.read? s node) s

def readSection? (fields : List Field) (s : Settings) : Node → Option Settings
  | .table _ table => readTable? fields table s
  | .array items => readItems? fields items s
  | .tables items => readItems? fields (items.map (.table .header)) s
  | .moment => some s
  | _ => none

/-- The settings of a document. -/
def ofFields? (document : Fields) : Option Settings :=
  sections.foldlM
    (fun s (name, fields) =>
      match document.lookup name with
      | some node => readSection? fields s node
      | none => some s)
    {}

/-- The settings in a text, if they are acceptable. -/
def ofText (text : String) : Except Error Settings :=
  match (Document.read? text).bind ofFields? with
  | none => .error .badDocument
  | some s =>
    match s.check with
    | .ok () => .ok s
    | .error e => .error e

/-- The settings in the content of a file, which is missing if the file is. -/
def ofContent (content : Option ByteArray) : Except Error Settings :=
  match content.bind String.fromUTF8? with
  | some text => ofText text
  | none => .error .unreadable

/-- Whatever is read is acceptable. -/
theorem acceptable_of_ofText {text : String} {s : Settings} (h : ofText text = .ok s) :
    s.Acceptable := by
  unfold ofText at h
  split at h
  · simp at h
  · split at h
    · rename_i hc
      rw [Except.ok.injEq] at h
      exact h ▸ (check_eq_ok_iff _).1 hc
    · simp at h

end Warband.Settings
