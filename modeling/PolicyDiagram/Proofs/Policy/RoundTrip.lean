import Mathlib.Logic.Function.Basic
import PolicyDiagram.Policy.Fragment
import PolicyDiagram.Proofs.Json.Parsing
import PolicyDiagram.Proofs.Policy.Faithful
import PolicyDiagram.Proofs.Yaml.Composing

/-! Decoding undoes encoding, in both formats. -/

namespace PolicyDiagram

/-- How a document is written. JSON is written on one line or indented. -/
inductive Writer where
  | yaml
  | compactJson
  | indentedJson
deriving DecidableEq, Repr

namespace Writer

def format : Writer → FragmentFormat
  | yaml => .yaml
  | compactJson | indentedJson => .json

/-- The text of a tree of data. -/
def text : Writer → Data.Tree → String
  | yaml => Yaml.print
  | compactJson => Json.compact
  | indentedJson => Json.indented

end Writer

/-- Decodes the bytes of a fragment as a value of any shape. -/
def FragmentFormat.decode {α : Type} (format : FragmentFormat) (shape : Data.Shape α) (bytes : ByteArray) :
    Except DecodeError α :=
  match format with
  | .yaml => (Yaml.decode shape bytes).mapError .yaml
  | .json => (Json.decode .streamed shape bytes).mapError .json

theorem Writer.decode_text (writer : Writer) {α : Type} (shape : Data.Shape α) (verbal : shape.Verbal)
    {value : α} (recovers : shape.Recovers value) {entries : List (String × Data.Tree)}
    (written : shape.write value = .record entries) (filled : entries ≠ []) :
    writer.format.decode shape (writer.text (shape.write value)).toUTF8 = .ok value := by
  have wordy := shape.write_verbal verbal value
  cases writer with
  | yaml =>
    have read := Yaml.decode_print shape verbal recovers written filled
    simp only [format, FragmentFormat.decode, text, read]
    rfl
  | compactJson =>
    have read := Json.decode_of_lays .streamed shape recovers (Json.compact_lays _ wordy)
    simp only [format, FragmentFormat.decode, text, read]
    rfl
  | indentedJson =>
    have read := Json.decode_of_lays .streamed shape recovers (Json.indented_lays 0 _ wordy)
    simp only [format, FragmentFormat.decode, text, Json.indented, read]
    rfl

namespace Document

def encode (writer : Writer) (d : Document) : ByteArray := (writer.text (shape.write d)).toUTF8

/-- A fragment written again. -/
def rewrite (writer : Writer) (format : FragmentFormat) (bytes : ByteArray) : Except DecodeError ByteArray :=
  (decode format bytes).map (encode writer)

theorem decode_eq (format : FragmentFormat) (bytes : ByteArray) :
    decode format bytes = format.decode shape bytes := by
  cases format <;> rfl

theorem decode_encode (writer : Writer) (d : Document) : decode writer.format (encode writer d) = .ok d := by
  rw [decode_eq]
  apply writer.decode_text shape shape_verbal d.shape_recovers rfl
  rw [Data.Fields.write_field]
  exact List.cons_ne_nil _ _

theorem encode_injective (writer : Writer) : Function.Injective (encode writer) := by
  intro d e same
  have both := decode_encode writer e
  rw [← same, decode_encode] at both
  exact Except.ok.inj both

theorem decode_rewrite (writer : Writer) (format : FragmentFormat) (bytes : ByteArray) :
    (rewrite writer format bytes).bind (decode writer.format) = decode format bytes := by
  cases read : decode format bytes with
  | error _ => simp [rewrite, read, Except.map, Except.bind]
  | ok d => simp [rewrite, read, Except.map, Except.bind, decode_encode]

theorem rewrite_rewrite (writer : Writer) (format : FragmentFormat) (bytes : ByteArray) :
    (rewrite writer format bytes).bind (rewrite writer writer.format) = rewrite writer format bytes := by
  cases read : decode format bytes with
  | error _ => simp [rewrite, read, Except.map, Except.bind]
  | ok d => simp [rewrite, read, Except.map, Except.bind, decode_encode]

/-- Encoding loses nothing, and what any fragment decodes to has one encoding, which is its canonical form. -/
theorem encoding_is_faithful (writer : Writer) :
    (∀ d, decode writer.format (encode writer d) = .ok d) ∧ Function.Injective (encode writer) ∧
      (∀ format bytes, (rewrite writer format bytes).bind (decode writer.format) = decode format bytes) ∧
      ∀ format bytes,
        (rewrite writer format bytes).bind (rewrite writer writer.format) = rewrite writer format bytes :=
  ⟨decode_encode writer, encode_injective writer, decode_rewrite writer, rewrite_rewrite writer⟩

end Document

end PolicyDiagram
