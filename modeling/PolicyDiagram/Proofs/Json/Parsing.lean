import PolicyDiagram.Json.Parse
import PolicyDiagram.Proofs.Json.Layout
import PolicyDiagram.Proofs.Json.Reading
import PolicyDiagram.Proofs.Json.Text

/-! The tree of a text that lays a tree out spells that tree. The invariant of the work on open frames: a
finished value goes to its frame, and so many steps lead from a place to the value that stands there. -/

namespace PolicyDiagram.Json

open Data (Tree Shape)
open Text (Follow encoded encoded_cons encoded_append follow_append follow_cons getElem?_of_follow
  lt_size_of_follow byteCount byteCount_append)

/-! ## Space -/

theorem follow_chars {bytes : Bytes} {first second : List Char} {i : Nat} {tail : List UInt8}
    (follow : Follow bytes i (encoded (first ++ second) ++ tail)) :
    Follow bytes (i + byteCount first) (encoded second ++ tail) := by
  rw [encoded_append, List.append_assoc] at follow
  rw [← Text.length_encoded]
  exact follow_append follow

theorem skipBlank_of_solid {bytes : Bytes} {i : Nat} {c : Char} {rest : List Char} {tail : List UInt8}
    (ascii : c.toNat < 128) (solid : isBlank (UInt8.ofNat c.toNat) = false)
    (follow : Follow bytes i (encoded (c :: rest) ++ tail)) : bytes.skipBlank i = i := by
  rw [encoded_cons, utf8EncodeChar_of_lt ascii] at follow
  have inside := lt_size_of_follow follow
  have here : bytes[i] = UInt8.ofNat c.toNat := by
    have found := getElem?_of_follow follow
    rw [getElem?_pos bytes i inside] at found
    exact Option.some.inj found
  rw [Bytes.skipBlank, dif_pos inside, here, solid]
  rfl

theorem skipBlank_space {bytes : Bytes} {space rest : List Char} {i : Nat} {tail : List UInt8}
    (blank : IsSpace space) (follow : Follow bytes i (encoded (space ++ rest) ++ tail)) :
    bytes.skipBlank i = bytes.skipBlank (i + byteCount space) := by
  induction space generalizing i with
  | nil => rfl
  | cons c space ih =>
    have ascii : c.toNat < 128 := by
      rcases blank c (by simp) with rfl | rfl <;> decide
    have skipped : isBlank (UInt8.ofNat c.toNat) = true := by
      rcases blank c (by simp) with rfl | rfl <;> decide
    have behind := (byte?_of_follow ascii follow).2
    rw [List.cons_append, encoded_cons, utf8EncodeChar_of_lt ascii] at follow
    have inside := lt_size_of_follow follow
    have here : bytes[i] = UInt8.ofNat c.toNat := by
      have found := getElem?_of_follow follow
      rw [getElem?_pos bytes i inside] at found
      exact Option.some.inj found
    have step : bytes.skipBlank i = bytes.skipBlank (i + 1) := by
      rw [Bytes.skipBlank, dif_pos inside, here, skipped]
      rfl
    have one : c.utf8Size = 1 := by
      rcases blank c (by simp) with rfl | rfl <;> rfl
    rw [step, ih (fun d member => blank d (by simp [member])) behind, byteCount, one, Nat.add_assoc]

theorem solid_behind_space {bytes : Bytes} {space rest : List Char} {c : Char} {i : Nat}
    {tail : List UInt8} (blank : IsSpace space) (ascii : c.toNat < 128)
    (solid : isBlank (UInt8.ofNat c.toNat) = false)
    (follow : Follow bytes i (encoded (space ++ c :: rest) ++ tail)) :
    bytes.skipBlank i = i + byteCount space ∧ bytes.byte? (i + byteCount space) = some c ∧
      Follow bytes (i + byteCount space + 1) (encoded rest ++ tail) := by
  have behind := follow_chars follow
  rw [skipBlank_space blank follow, skipBlank_of_solid ascii solid behind]
  exact ⟨rfl, byte?_of_follow ascii behind⟩

/-- Whether a character may be the first one of a value. -/
def StartsValue (c : Char) : Prop := c = 'n' ∨ c = '"' ∨ c = '[' ∨ c = '\x7b'

theorem StartsValue.solid {c : Char} (starts : StartsValue c) :
    c.toNat < 128 ∧ isBlank (UInt8.ofNat c.toNat) = false ∧ c ≠ ']' ∧ c ≠ ',' := by
  rcases starts with rfl | rfl | rfl | rfl <;> decide

theorem head_of_lays {tree : Tree} {chars : List Char} (lays : Lays tree chars) :
    ∃ c rest, chars = c :: rest ∧ StartsValue c := by
  match tree with
  | .null => exact ⟨_, _, lays, by simp [StartsValue]⟩
  | .text _ => exact ⟨_, _, lays, by simp [StartsValue]⟩
  | .list [] =>
    obtain ⟨space, -, rfl⟩ := lays
    exact ⟨_, _, rfl, by simp [StartsValue]⟩
  | .list (item :: items) =>
    obtain ⟨space, first, rest, -, -, -, rfl⟩ := lays
    exact ⟨_, _, rfl, by simp [StartsValue]⟩
  | .record [] =>
    obtain ⟨space, -, rfl⟩ := lays
    exact ⟨_, _, rfl, by simp [StartsValue]⟩
  | .record ((name, value) :: entries) =>
    obtain ⟨space, gap, first, rest, -, -, -, -, rfl⟩ := lays
    exact ⟨_, _, rfl, by simp [StartsValue]⟩

/-! ## Work -/

/-- So many steps lead from one task to another. -/
def Leads (bytes : Bytes) (task : Task) (frames : List Frame) (count : Nat) (next : Task)
    (onward : List Frame) : Prop :=
  ∀ fuel, bytes.work task frames (fuel + count) = bytes.work next onward fuel

theorem Leads.trans {bytes : Bytes} {first second third : Task} {fs gs hs : List Frame} {m n : Nat}
    (before : Leads bytes first fs m second gs) (after : Leads bytes second gs n third hs) :
    Leads bytes first fs (m + n) third hs := by
  intro fuel
  rw [Nat.add_comm m n, ← Nat.add_assoc, before, after]

theorem leads_find (bytes : Bytes) (i : Nat) (frames : List Frame) :
    Leads bytes (.find i) frames 1 (bytes.find i frames).1 (bytes.find i frames).2 :=
  fun _ => rfl

theorem leads_giveItem (bytes : Bytes) (node : Node) (start : Nat) (items : List Node)
    (frames : List Frame) :
    Leads bytes (.give node) (.list start items :: frames) 1
      (bytes.giveItem start items node frames).1 (bytes.giveItem start items node frames).2 :=
  fun _ => rfl

theorem leads_giveValue (bytes : Bytes) (node : Node) (start : Nat) (members : List Member)
    (key : Key) (frames : List Frame) :
    Leads bytes (.give node) (.record start members key :: frames) 1
      (bytes.giveValue start members key node frames).1
      (bytes.giveValue start members key node frames).2 :=
  fun _ => rfl

/-- The value at a place is found whole, up to another place and in few enough steps. -/
def Finds (bytes : Bytes) (tree : Tree) (i stop limit : Nat) : Prop :=
  ∃ node count, Spells tree node ∧ node.passing = .ok stop ∧ count ≤ limit ∧
    ∀ frames, Leads bytes (.find i) frames count (.give node) frames

theorem finds_scalar {bytes : Bytes} {tree : Tree} {space rest : List Char} {c : Char} {i stop : Nat}
    {tail : List UInt8} (blank : IsSpace space) (ascii : c.toNat < 128)
    (solid : isBlank (UInt8.ofNat c.toNat) = false) (leaf : c = 'n' ∨ c = '"')
    (follow : Follow bytes i (encoded (space ++ c :: rest) ++ tail))
    (spells : Spells tree (bytes.scalar (i + byteCount space)))
    (passing : (bytes.scalar (i + byteCount space)).passing = .ok stop) :
    Finds bytes tree i stop 2 := by
  obtain ⟨skipped, here, -⟩ := solid_behind_space blank ascii solid follow
  refine ⟨_, 1, spells, passing, by omega, fun frames => ?_⟩
  have found : bytes.find i frames = (.give (bytes.scalar (i + byteCount space)), frames) := by
    rw [Bytes.find, skipped, here]
    rcases leaf with rfl | rfl <;> rfl
  have step := leads_find bytes i frames
  rwa [found] at step

theorem finds_null {bytes : Bytes} {space : List Char} {i : Nat} {tail : List UInt8}
    (blank : IsSpace space)
    (follow : Follow bytes i (encoded (space ++ ['n', 'u', 'l', 'l']) ++ tail)) :
    Finds bytes .null i (i + byteCount space + 4) 2 := by
  obtain ⟨-, here, follow₁⟩ := solid_behind_space blank (by decide) (by decide) follow
  obtain ⟨second, follow₂⟩ := byte?_of_follow (by decide) follow₁
  obtain ⟨third, follow₃⟩ := byte?_of_follow (by decide) follow₂
  obtain ⟨fourth, -⟩ := byte?_of_follow (by decide) follow₃
  have scalar : bytes.scalar (i + byteCount space) =
      .mk (bytes.peek (i + byteCount space)) (.at (i + byteCount space + 4))
        (.ok (i + byteCount space + 4)) (.name .null none) := by
    simp [Bytes.scalar, here, Name.starting?, Bytes.restOfName, second, third, fourth]
  refine finds_scalar blank (by decide) (by decide) (by decide) follow ?_ ?_ <;> rw [scalar] <;> rfl

theorem finds_text {bytes : Bytes} {space : List Char} {value : String} {i : Nat} {tail : List UInt8}
    (blank : IsSpace space)
    (follow : Follow bytes i
      (encoded (space ++ '"' :: (value.toList.flatMap escape ++ ['"'])) ++ tail)) :
    Finds bytes (.text value) i (i + byteCount space + byteCount (value.toList.flatMap escape) + 2) 2 := by
  obtain ⟨-, here, inside⟩ := solid_behind_space blank (by decide) (by decide) follow
  obtain ⟨read, passed⟩ := text_of_follow inside
  refine finds_scalar blank (by decide) (by decide) (by decide) follow ?_ ?_ <;>
    simp [Bytes.scalar, here, Name.starting?, read, passed, Spells, valueOf, Except.map,
      Node.content, Node.passing]
  omega

/-- What follows an item is taken into its list, which is then closed. -/
def ClosesList (bytes : Bytes) (items : List Tree) (i stop limit : Nat) : Prop :=
  ∀ node start before, node.passing = .ok i → ∃ nodes bracket count,
    SpellItems items nodes ∧ bracket + 1 = stop ∧ count ≤ limit ∧
    ∀ frames, Leads bytes (.give node) (.list start before :: frames) count
      (.give (bytes.listNode start (nodes.reverse ++ node :: before) (.closed bracket))) frames

theorem closesList_nil {bytes : Bytes} {space : List Char} {i : Nat} {tail : List UInt8}
    (blank : IsSpace space) (follow : Follow bytes i (encoded (space ++ [']']) ++ tail)) :
    ClosesList bytes [] i (i + byteCount space + 1) 1 := by
  intro node start before passing
  obtain ⟨skipped, here, -⟩ := solid_behind_space blank (by decide) (by decide) follow
  refine ⟨[], i + byteCount space, 1, rfl, rfl, Nat.le_refl _, fun frames => ?_⟩
  have step := leads_giveItem bytes node start before frames
  simpa [Bytes.giveItem, passing, skipped, here] using step

theorem closesList_cons {bytes : Bytes} {item : Tree} {items : List Tree}
    {gap space first rest : List Char} {i j stop m n : Nat} {tail : List UInt8} (blank : IsSpace gap)
    (blank' : IsSpace space) (lays : Lays item first)
    (follow : Follow bytes i (encoded (gap ++ ',' :: (space ++ (first ++ rest))) ++ tail))
    (found : Finds bytes item (i + byteCount gap + 1 + byteCount space) j m)
    (closes : ClosesList bytes items j stop n) :
    ClosesList bytes (item :: items) i stop (m + n + 1) := by
  intro node start before passing
  obtain ⟨c, others, rfl, starts⟩ := head_of_lays lays
  obtain ⟨ascii, solid, notBracket, -⟩ := starts.solid
  obtain ⟨skipped, comma, behind⟩ := solid_behind_space blank (by decide) (by decide) follow
  obtain ⟨skipped', here, -⟩ := solid_behind_space blank' ascii solid behind
  obtain ⟨value, p, spells, passing', short, finds⟩ := found
  obtain ⟨nodes, bracket, q, spellRest, last, shorter, closed⟩ :=
    closes value start (node :: before) passing'
  refine ⟨value :: nodes, bracket, 1 + p + q, ⟨value, nodes, rfl, spells, spellRest⟩, last, by omega,
    fun frames => ?_⟩
  have given : bytes.giveItem start before node frames =
      (.find (i + byteCount gap + 1 + byteCount space), .list start (node :: before) :: frames) := by
    simp [Bytes.giveItem, passing, skipped, comma, skipped', here, notBracket]
  have step := leads_giveItem bytes node start before frames
  rw [given] at step
  simpa using (step.trans (finds _)).trans (closed frames)

theorem finds_list_nil {bytes : Bytes} {space inner : List Char} {i : Nat} {tail : List UInt8}
    (blank : IsSpace space) (blank' : IsSpace inner)
    (follow : Follow bytes i (encoded (space ++ '[' :: (inner ++ [']'])) ++ tail)) :
    Finds bytes (.list []) i (i + byteCount space + 1 + byteCount inner + 1) 1 := by
  obtain ⟨skipped, here, behind⟩ := solid_behind_space blank (by decide) (by decide) follow
  obtain ⟨skipped', close, -⟩ := solid_behind_space blank' (by decide) (by decide) behind
  refine ⟨bytes.listNode (i + byteCount space) [] (.closed (i + byteCount space + 1 + byteCount inner)),
    1, ⟨[], _, rfl, rfl⟩, rfl, Nat.le_refl _, fun frames => ?_⟩
  have found : bytes.find i frames = (.give (bytes.listNode (i + byteCount space) []
      (.closed (i + byteCount space + 1 + byteCount inner))), frames) := by
    rw [Bytes.find, skipped, here, skipped', close]
    rfl
  have step := leads_find bytes i frames
  rwa [found] at step

theorem finds_list_cons {bytes : Bytes} {item : Tree} {items : List Tree}
    {space inner first rest : List Char} {i j stop m n : Nat} {tail : List UInt8}
    (blank : IsSpace space) (blank' : IsSpace inner) (lays : Lays item first)
    (follow : Follow bytes i (encoded (space ++ '[' :: (inner ++ (first ++ rest))) ++ tail))
    (found : Finds bytes item (i + byteCount space + 1 + byteCount inner) j m)
    (closes : ClosesList bytes items j stop n) :
    Finds bytes (.list (item :: items)) i stop (m + n + 1) := by
  obtain ⟨c, others, rfl, starts⟩ := head_of_lays lays
  obtain ⟨ascii, solid, notBracket, notComma⟩ := starts.solid
  obtain ⟨skipped, bracket, behind⟩ := solid_behind_space blank (by decide) (by decide) follow
  obtain ⟨skipped', here, -⟩ := solid_behind_space blank' ascii solid behind
  obtain ⟨value, p, spells, passing, short, finds⟩ := found
  obtain ⟨nodes, close, q, spellRest, rfl, shorter, closed⟩ :=
    closes value (i + byteCount space) [] passing
  have content : (bytes.listNode (i + byteCount space) (nodes.reverse ++ [value])
      (.closed close)).content = .list (value :: nodes) (.closed close) := by
    simp [Bytes.listNode, Node.content]
  refine ⟨_, 1 + p + q, ⟨value :: nodes, close, content, value, nodes, rfl, spells, spellRest⟩, rfl,
    by omega, fun frames => ?_⟩
  -- An item starts with none of the characters that would end the list or be out of place there.
  have opened : bytes.find i frames = (.find (i + byteCount space + 1 + byteCount inner),
      .list (i + byteCount space) [] :: frames) := by
    rw [Bytes.find, skipped, bracket, skipped', here]
    rcases starts with rfl | rfl | rfl | rfl <;> rfl
  have step := leads_find bytes i frames
  rw [opened] at step
  exact (step.trans (finds _)).trans (closed frames)

theorem key_of_follow {bytes : Bytes} {name : String} {rest : List Char} {i : Nat} {tail : List UInt8}
    (follow : Follow bytes i
      (encoded ('"' :: (name.toList.flatMap escape ++ '"' :: ':' :: rest)) ++ tail)) :
    ∃ afterKey resumed,
      bytes.key i =
        ⟨.ok name, afterKey, resumed, .ok (i + byteCount (name.toList.flatMap escape) + 3)⟩ ∧
      Follow bytes (i + byteCount (name.toList.flatMap escape) + 3) (encoded rest ++ tail) := by
  obtain ⟨-, inside⟩ := byte?_of_follow (by decide) follow
  have closed : name.toList.flatMap escape ++ '"' :: ':' :: rest =
      name.toList.flatMap escape ++ ['"'] ++ ':' :: rest := by simp
  rw [closed] at inside
  have quoted := inside
  rw [encoded_append, List.append_assoc] at quoted
  obtain ⟨read, passed⟩ := text_of_follow quoted
  have behind := follow_chars inside
  have place : i + 1 + byteCount (name.toList.flatMap escape ++ ['"']) =
      i + byteCount (name.toList.flatMap escape) + 2 := by
    rw [byteCount_append, show byteCount ['"'] = 1 from rfl]
    omega
  rw [place] at behind
  obtain ⟨colon, beyond⟩ := byte?_of_follow (by decide) behind
  have skipped := skipBlank_of_solid (by decide) (by decide) behind
  have stop : i + 1 + byteCount (name.toList.flatMap escape) + 1 =
      i + byteCount (name.toList.flatMap escape) + 2 := by omega
  rw [Text.length_encoded, stop] at read passed
  refine ⟨i + byteCount (name.toList.flatMap escape) + 2,
    bytes.before (i + byteCount (name.toList.flatMap escape) + 2), ?_, beyond⟩
  simp [Bytes.key, read, passed, skipped, colon, valueOf, Except.map]

/-- What follows the value of a key is taken into its record, which is then closed. -/
def ClosesRecord (bytes : Bytes) (entries : List (String × Tree)) (i stop limit : Nat) : Prop :=
  ∀ node start before key, node.passing = .ok i → ∃ next members bracket count,
    SpellMembers entries members ∧ bracket + 1 = stop ∧ count ≤ limit ∧
    ∀ frames, Leads bytes (.give node) (.record start before key :: frames) count
      (.give (bytes.recordNode start
        (members.reverse ++ .mk key.read key.afterKey key.resumed (.ok node) next :: before)
        (.closed bracket))) frames

theorem closesRecord_nil {bytes : Bytes} {space : List Char} {i : Nat} {tail : List UInt8}
    (blank : IsSpace space) (follow : Follow bytes i (encoded (space ++ ['\x7d']) ++ tail)) :
    ClosesRecord bytes [] i (i + byteCount space + 1) 1 := by
  intro node start before key passing
  obtain ⟨skipped, here, -⟩ := solid_behind_space blank (by decide) (by decide) follow
  refine ⟨i + byteCount space, [], i + byteCount space, 1, rfl, rfl, Nat.le_refl _, fun frames => ?_⟩
  have step := leads_giveValue bytes node start before key frames
  simpa [Bytes.giveValue, passing, skipped, here] using step

theorem closesRecord_cons {bytes : Bytes} {name : String} {value : Tree}
    {entries : List (String × Tree)} {gap space inner first rest : List Char}
    {i j stop m n : Nat} {tail : List UInt8} (blank : IsSpace gap) (blank' : IsSpace space)
    (follow : Follow bytes i (encoded (gap ++ ',' :: (space ++ '"' ::
      (name.toList.flatMap escape ++ '"' :: ':' :: (inner ++ (first ++ rest))))) ++ tail))
    (found : Finds bytes value (i + byteCount gap + 1 + byteCount space +
      byteCount (name.toList.flatMap escape) + 3) j m)
    (closes : ClosesRecord bytes entries j stop n) :
    ClosesRecord bytes ((name, value) :: entries) i stop (m + n + 1) := by
  intro node start before key passing
  obtain ⟨skipped, comma, behind⟩ := solid_behind_space blank (by decide) (by decide) follow
  obtain ⟨skipped', quote, -⟩ := solid_behind_space blank' (by decide) (by decide) behind
  obtain ⟨afterKey, resumed, read, -⟩ := key_of_follow (follow_chars behind)
  obtain ⟨part, p, spells, passing', short, finds⟩ := found
  let place := i + byteCount gap
  let before' := .mk key.read key.afterKey key.resumed (.ok node) place :: before
  obtain ⟨next, members, bracket, q, spellRest, last, shorter, closed⟩ :=
    closes part start before' (bytes.key (place + 1 + byteCount space)) passing'
  rw [read] at closed
  refine ⟨place, .mk (.ok name) afterKey resumed (.ok part) next :: members, bracket, 1 + p + q,
    ⟨_, _, _, _, _, rfl, spells, spellRest⟩, last, by omega, fun frames => ?_⟩
  have given := leads_giveValue bytes node start before key frames
  simp only [Bytes.giveValue, passing, skipped, comma, skipped', quote, Bytes.enterKey, read] at given
  simpa using (given.trans (finds _)).trans (closed frames)

theorem finds_record_nil {bytes : Bytes} {space inner : List Char} {i : Nat} {tail : List UInt8}
    (blank : IsSpace space) (blank' : IsSpace inner)
    (follow : Follow bytes i (encoded (space ++ '\x7b' :: (inner ++ ['\x7d'])) ++ tail)) :
    Finds bytes (.record []) i (i + byteCount space + 1 + byteCount inner + 1) 1 := by
  obtain ⟨skipped, here, behind⟩ := solid_behind_space blank (by decide) (by decide) follow
  obtain ⟨skipped', close, -⟩ := solid_behind_space blank' (by decide) (by decide) behind
  refine ⟨bytes.recordNode (i + byteCount space) []
    (.closed (i + byteCount space + 1 + byteCount inner)), 1, ⟨[], _, rfl, rfl⟩, rfl, Nat.le_refl _,
    fun frames => ?_⟩
  have found : bytes.find i frames = (.give (bytes.recordNode (i + byteCount space) []
      (.closed (i + byteCount space + 1 + byteCount inner))), frames) := by
    rw [Bytes.find, skipped, here, skipped', close]
    rfl
  have step := leads_find bytes i frames
  rwa [found] at step

theorem finds_record_cons {bytes : Bytes} {name : String} {value : Tree}
    {entries : List (String × Tree)} {space inner gap first rest : List Char}
    {i j stop m n : Nat} {tail : List UInt8} (blank : IsSpace space) (blank' : IsSpace inner)
    (follow : Follow bytes i (encoded (space ++ '\x7b' :: (inner ++ '"' ::
      (name.toList.flatMap escape ++ '"' :: ':' :: (gap ++ (first ++ rest))))) ++ tail))
    (found : Finds bytes value (i + byteCount space + 1 + byteCount inner +
      byteCount (name.toList.flatMap escape) + 3) j m)
    (closes : ClosesRecord bytes entries j stop n) :
    Finds bytes (.record ((name, value) :: entries)) i stop (m + n + 1) := by
  obtain ⟨skipped, brace, behind⟩ := solid_behind_space blank (by decide) (by decide) follow
  obtain ⟨skipped', quote, -⟩ := solid_behind_space blank' (by decide) (by decide) behind
  obtain ⟨afterKey, resumed, read, -⟩ := key_of_follow (follow_chars behind)
  obtain ⟨part, p, spells, passing, short, finds⟩ := found
  obtain ⟨next, members, close, q, spellRest, rfl, shorter, closed⟩ :=
    closes part (i + byteCount space) [] (bytes.key (i + byteCount space + 1 + byteCount inner)) passing
  rw [read] at closed
  have content : (bytes.recordNode (i + byteCount space)
      (members.reverse ++ [.mk (.ok name) afterKey resumed (.ok part) next]) (.closed close)).content =
        .record (.mk (.ok name) afterKey resumed (.ok part) next :: members) (.closed close) := by
    simp [Bytes.recordNode, Node.content]
  refine ⟨_, 1 + p + q, ⟨_, close, content, _, _, _, _, _, rfl, spells, spellRest⟩, rfl, by omega,
    fun frames => ?_⟩
  have opened : bytes.find i frames =
      bytes.enterKey (i + byteCount space) [] (i + byteCount space + 1 + byteCount inner) frames := by
    rw [Bytes.find, skipped, brace, skipped', quote]
    rfl
  have step := leads_find bytes i frames
  simp only [opened, Bytes.enterKey, read] at step
  exact (step.trans (finds _)).trans (closed frames)

theorem Finds.weaken {bytes : Bytes} {tree : Tree} {i stop stop' limit limit' : Nat}
    (finds : Finds bytes tree i stop limit) (same : stop = stop') (more : limit ≤ limit') :
    Finds bytes tree i stop' limit' := by
  obtain ⟨node, count, spells, passing, short, leads⟩ := finds
  exact ⟨node, count, spells, same ▸ passing, Nat.le_trans short more, leads⟩

theorem ClosesList.weaken {bytes : Bytes} {items : List Tree} {i stop stop' limit limit' : Nat}
    (closes : ClosesList bytes items i stop limit) (same : stop = stop') (more : limit ≤ limit') :
    ClosesList bytes items i stop' limit' := by
  intro node start before passing
  obtain ⟨nodes, bracket, count, spells, last, short, leads⟩ := closes node start before passing
  exact ⟨nodes, bracket, count, spells, same ▸ last, Nat.le_trans short more, leads⟩

theorem ClosesRecord.weaken {bytes : Bytes} {entries : List (String × Tree)}
    {i stop stop' limit limit' : Nat} (closes : ClosesRecord bytes entries i stop limit)
    (same : stop = stop') (more : limit ≤ limit') : ClosesRecord bytes entries i stop' limit' := by
  intro node start before key passing
  obtain ⟨next, members, bracket, count, spells, last, short, leads⟩ :=
    closes node start before key passing
  exact ⟨next, members, bracket, count, spells, same ▸ last, Nat.le_trans short more, leads⟩

mutual

theorem finds_of_lays (bytes : Bytes) : (tree : Tree) → ∀ {space chars : List Char} {i : Nat}
    {tail : List UInt8}, IsSpace space → Lays tree chars →
    Follow bytes i (encoded (space ++ chars) ++ tail) →
    Finds bytes tree i (i + byteCount space + byteCount chars) (2 * byteCount chars)
  | .null, _, _, _, _, blank, lays, follow => by
    subst lays
    exact (finds_null blank follow).weaken rfl (by decide)
  | .text value, _, _, _, _, blank, lays, follow => by
    subst lays
    refine (finds_text blank follow).weaken ?_ ?_ <;>
      simp only [byteCount, byteCount_append, show '"'.utf8Size = 1 from rfl] <;> omega
  | .list [], _, _, _, _, blank, lays, follow => by
    obtain ⟨inner, blank', rfl⟩ := lays
    refine (finds_list_nil blank blank' follow).weaken ?_ ?_ <;>
      simp only [byteCount, byteCount_append, show '['.utf8Size = 1 from rfl,
        show ']'.utf8Size = 1 from rfl] <;> omega
  | .list (item :: items), space, _, i, _, blank, lays, follow => by
    obtain ⟨inner, first, rest, blank', layFirst, layRest, rfl⟩ := lays
    -- The first item is looked for behind the bracket, and the others where it ends.
    have behind := (solid_behind_space blank (by decide) (by decide) follow).2.2
    have inside := follow_chars behind
    have found := finds_of_lays bytes item isSpace_nil layFirst
      (by simpa only [List.nil_append, encoded_append, List.append_assoc] using inside)
    have closes := closesList_of_lays bytes items layRest (follow_chars inside)
    refine (finds_list_cons blank blank' layFirst follow found closes).weaken ?_ ?_ <;>
      simp only [byteCount, byteCount_append, show '['.utf8Size = 1 from rfl] <;> omega
  | .record [], _, _, _, _, blank, lays, follow => by
    obtain ⟨inner, blank', rfl⟩ := lays
    refine (finds_record_nil blank blank' follow).weaken ?_ ?_ <;>
      simp only [byteCount, byteCount_append, show '\x7b'.utf8Size = 1 from rfl,
        show '\x7d'.utf8Size = 1 from rfl] <;> omega
  | .record ((name, value) :: entries), space, _, i, _, blank, lays, follow => by
    obtain ⟨inner, gap, first, rest, blank', blank'', layFirst, layRest, rfl⟩ := lays
    have behind := (solid_behind_space blank (by decide) (by decide) follow).2.2
    obtain ⟨_, _, _, inside⟩ := key_of_follow (follow_chars behind)
    have found := finds_of_lays bytes value blank'' layFirst
      (by simpa only [encoded_append, List.append_assoc] using inside)
    have closes := closesRecord_of_lays bytes entries layRest (follow_chars (follow_chars inside))
    refine (finds_record_cons blank blank' follow found closes).weaken ?_ ?_ <;>
      simp only [byteCount, byteCount_append, show '\x7b'.utf8Size = 1 from rfl,
        show '"'.utf8Size = 1 from rfl, show ':'.utf8Size = 1 from rfl] <;> omega

theorem closesList_of_lays (bytes : Bytes) : (items : List Tree) → ∀ {chars : List Char} {i : Nat}
    {tail : List UInt8}, LaysItems items chars → Follow bytes i (encoded chars ++ tail) →
    ClosesList bytes items i (i + byteCount chars) (2 * byteCount chars)
  | [], _, _, _, lays, follow => by
    obtain ⟨space, blank, rfl⟩ := lays
    refine (closesList_nil blank follow).weaken ?_ ?_ <;>
      simp only [byteCount, byteCount_append, show ']'.utf8Size = 1 from rfl] <;> omega
  | item :: items, _, _, _, lays, follow => by
    obtain ⟨gap, space, first, rest, blank, blank', layFirst, layRest, rfl⟩ := lays
    have behind := (solid_behind_space blank (by decide) (by decide) follow).2.2
    have inside := follow_chars behind
    have found := finds_of_lays bytes item isSpace_nil layFirst
      (by simpa only [List.nil_append, encoded_append, List.append_assoc] using inside)
    have closes := closesList_of_lays bytes items layRest (follow_chars inside)
    refine (closesList_cons blank blank' layFirst follow found closes).weaken ?_ ?_ <;>
      simp only [byteCount, byteCount_append, show ','.utf8Size = 1 from rfl] <;> omega

theorem closesRecord_of_lays (bytes : Bytes) : (entries : List (String × Tree)) →
    ∀ {chars : List Char} {i : Nat} {tail : List UInt8}, LaysEntries entries chars →
    Follow bytes i (encoded chars ++ tail) →
    ClosesRecord bytes entries i (i + byteCount chars) (2 * byteCount chars)
  | [], _, _, _, lays, follow => by
    obtain ⟨space, blank, rfl⟩ := lays
    refine (closesRecord_nil blank follow).weaken ?_ ?_ <;>
      simp only [byteCount, byteCount_append, show '\x7d'.utf8Size = 1 from rfl] <;> omega
  | (name, value) :: entries, _, _, _, lays, follow => by
    obtain ⟨before, space, gap, first, rest, blank, blank', blank'', layFirst, layRest, rfl⟩ := lays
    have behind := (solid_behind_space blank (by decide) (by decide) follow).2.2
    obtain ⟨_, _, _, inside⟩ := key_of_follow (follow_chars behind)
    have found := finds_of_lays bytes value blank'' layFirst
      (by simpa only [encoded_append, List.append_assoc] using inside)
    have closes := closesRecord_of_lays bytes entries layRest (follow_chars (follow_chars inside))
    refine (closesRecord_cons blank blank' follow found closes).weaken ?_ ?_ <;>
      simp only [byteCount, byteCount_append, show ','.utf8Size = 1 from rfl,
        show '"'.utf8Size = 1 from rfl, show ':'.utf8Size = 1 from rfl] <;> omega

end

theorem parse_of_lays {tree : Tree} {text : String} (lays : Lays tree text.toList) :
    Spells tree (Bytes.parse text.toUTF8) ∧
      (Bytes.parse text.toUTF8).passing = .ok text.toUTF8.size := by
  have follow : Follow text.toUTF8 0 (encoded ([] ++ text.toList) ++ []) := by
    simpa using Text.follow_toUTF8 text
  obtain ⟨node, count, spells, passing, short, leads⟩ :=
    finds_of_lays text.toUTF8 tree isSpace_nil lays follow
  have size := Text.size_toUTF8 text
  obtain ⟨spare, enough⟩ : ∃ spare, 4 * text.toUTF8.size + 8 = spare + 1 + count :=
    ⟨4 * text.toUTF8.size + 7 - count, by omega⟩
  have parsed : Bytes.parse text.toUTF8 = node := by
    rw [Bytes.parse, enough, leads]
    rfl
  rw [parsed, size]
  refine ⟨spells, ?_⟩
  rw [passing, show byteCount [] = 0 from rfl]
  simp

/-- A value that its data determines is decoded from every text that lays the data out. -/
theorem decode_of_lays {α : Type} (source : Source) (shape : Shape α) {value : α}
    (recovers : shape.Recovers value) {text : String} (lays : Lays (shape.write value) text.toList) :
    decode source shape text.toUTF8 = .ok value := by
  obtain ⟨spells, passing⟩ := parse_of_lays lays
  have given : read text.toUTF8 shape (Bytes.parse text.toUTF8) = .ok value :=
    read_of_spells text.toUTF8 shape value _ recovers spells
  have whole : Bytes.skipBlank text.toUTF8 text.toUTF8.size = text.toUTF8.size := by
    rw [Bytes.skipBlank, dif_neg (Nat.lt_irrefl _)]
  have all : readAll shape text.toUTF8 = .ok value := by
    simp only [readAll, given, passing, whole, bind, Except.bind, Nat.lt_irrefl, if_false]
  simp only [decode, all]
  rfl

end PolicyDiagram.Json
