/-!
Reading UTF-8: how many bytes characters take, and where the encoded characters of a byte sequence stop being
well-formed.
-/

namespace PolicyDiagram.Text

def encodedWidth? (first : UInt8) : Option Nat :=
  if first < 0x80 then some 1
  else if first < 0xC0 then none
  else if first < 0xE0 then some 2
  else if first < 0xF0 then some 3
  else if first < 0xF8 then some 4
  else none

def byteCount : List Char → Nat
  | [] => 0
  | c :: rest => c.utf8Size + byteCount rest

theorem byteCount_append (first second : List Char) :
    byteCount (first ++ second) = byteCount first + byteCount second := by
  induction first with
  | nil => simp [byteCount]
  | cons c rest ih => simp [byteCount, ih, Nat.add_assoc]

/-- Nothing, if so many bytes end within a character or behind the text. -/
def splitBytes? : List Char → Nat → Option (List Char × List Char)
  | text, 0 => some ([], text)
  | [], _ + 1 => none
  | c :: rest, count + 1 =>
    if count + 1 < c.utf8Size then none
    else (splitBytes? rest (count + 1 - c.utf8Size)).map fun (first, second) => (c :: first, second)

def charAt? (bytes : ByteArray) (i : Nat) : Option (Char × Nat) :=
  (bytes.utf8DecodeChar? i).map fun c => (c, i + c.utf8Size)

/-- The first place from `i` on, before `stop`, at which no well-formed character starts. -/
def malformedFrom (bytes : ByteArray) (i stop : Nat) : Nat → Nat
  | 0 => i
  | fuel + 1 =>
    if stop ≤ i then i
    else
      match charAt? bytes i with
      | some (_, next) => malformedFrom bytes next stop fuel
      | none => i

end PolicyDiagram.Text
