import PolicyDiagram.Text.Utf8

/-!
The characters of a YAML stream, which is UTF-8 without control characters. A malformed byte spoils its whole
block. A stream that ends within a character spoils nothing: what is missing shows only when it is asked for.
-/

namespace PolicyDiagram.Yaml

structure Stream where
  chars : List Char
  sound : Bool
deriving DecidableEq, Repr

def blockSize : Nat := 16384

def isAllowed (c : Char) : Bool :=
  let n := c.toNat
  n = 0x09 || n = 0x0A || n = 0x0D || (0x20 ≤ n && n ≤ 0x7E) || n = 0x85 ||
    (0xA0 ≤ n && n ≤ 0xD7FF) || (0xE000 ≤ n && n ≤ 0xFFFD) || 0x10000 ≤ n

/-- The characters of the current block are in `block` and those before it in `done`, both in reverse; the
block ends at `limit`, unless a character crosses that limit and starts a block. -/
def takeIn (bytes : ByteArray) (i limit : Nat) (block done : List Char) : Nat → Stream
  | 0 => ⟨(block ++ done).reverse, true⟩
  | fuel + 1 =>
    match bytes[i]? with
    | none => ⟨(block ++ done).reverse, true⟩
    | some first =>
      match Text.encodedWidth? first with
      | none =>
        if limit ≤ i then ⟨(block ++ done).reverse, false⟩ else ⟨done.reverse, false⟩
      | some width =>
        let next := i + width
        if bytes.size < next then ⟨(block ++ done).reverse, false⟩
        else
          let (limit, block, done) :=
            if limit < next then (i + blockSize, [], block ++ done) else (limit, block, done)
          match Text.charAt? bytes i with
          | some (c, next) =>
            if isAllowed c then takeIn bytes next limit (c :: block) done fuel
            else ⟨done.reverse, false⟩
          | none => ⟨done.reverse, false⟩

def Stream.ofBytes (bytes : ByteArray) : Stream := takeIn bytes 0 blockSize [] [] (bytes.size + 1)

end PolicyDiagram.Yaml
