import PolicyDiagram.Proofs.Yaml.Clean
import PolicyDiagram.Proofs.Yaml.Delivery
import PolicyDiagram.Proofs.Yaml.Lexing
import PolicyDiagram.Yaml.Event

/-! The events of a printed tree. The grammar meets a node as a token and what it expects behind the node, so
the induction is on the tree, from where its first token is asked for to where that is expected. -/

namespace PolicyDiagram.Yaml

open Data (Tree VerbalItems VerbalEntries)

mutual

/-- The events of a tree. -/
def treeEvents : Tree → List EventKind
  | .null => [.scalar none ⟨"null", .plain, none⟩]
  | .boolean value => [.scalar none ⟨if value then "true" else "false", .plain, none⟩]
  | .natural value => [.scalar none ⟨toString value, .plain, none⟩]
  | .text value => [.scalar none ⟨value, styleFor value.toList, none⟩]
  | .list items => .sequenceStart none none :: itemEvents items ++ [.sequenceEnd]
  | .record entries => .mappingStart none none :: entryEvents entries ++ [.mappingEnd]

def itemEvents : List Tree → List EventKind
  | [] => []
  | item :: rest => treeEvents item ++ itemEvents rest

def entryEvents : List (String × Tree) → List EventKind
  | [] => []
  | (name, value) :: rest =>
    .scalar none ⟨name, .plain, none⟩ :: treeEvents value ++ entryEvents rest

end

mutual

/-- A list pays for its start and end with a token for each item, if it has no brackets and no block. -/
theorem length_treeEvents (valued : Bool) :
    (tree : Tree) → (treeEvents tree).length ≤ 2 * (treeKinds valued tree).length
  | .null | .boolean _ | .natural _ | .text _ => by simp [treeEvents, treeKinds]
  | .list [] => by simp [treeEvents, treeKinds, itemEvents]
  | .list (item :: rest) => by
    have items := length_itemEvents (item :: rest)
    cases valued <;> simp [treeEvents, treeKinds] at items ⊢ <;> omega
  | .record [] => by simp [treeEvents, treeKinds, entryEvents]
  | .record (entry :: rest) => by
    have entries := length_entryEvents (entry :: rest)
    simp [treeEvents, treeKinds]
    omega

theorem length_itemEvents :
    (items : List Tree) → (itemEvents items).length + 2 * items.length ≤ 2 * (itemKinds items).length
  | [] => by simp [itemEvents, itemKinds]
  | item :: rest => by
    have first := length_treeEvents false item
    have others := length_itemEvents rest
    simp [itemEvents, itemKinds]
    omega

theorem length_entryEvents :
    (entries : List (String × Tree)) → (entryEvents entries).length ≤ 2 * (entryKinds entries).length
  | [] => by simp [entryEvents, entryKinds]
  | (_, value) :: rest => by
    have first := length_treeEvents true value
    have others := length_entryEvents rest
    simp [entryEvents, entryKinds]
    omega

end

namespace Grammar

/-- A grammar emits events of these kinds and goes on as another one. -/
def Emits (g : Grammar) (kinds : List EventKind) (last : Grammar) : Prop :=
  ∃ events : List Event, events.map Event.kind = kinds ∧ ∀ before fuel,
    g.collect before (events.length + fuel) = last.collect (events.reverse ++ before) fuel

theorem Emits.refl (g : Grammar) : Emits g [] g :=
  ⟨[], rfl, fun before fuel => by simp⟩

theorem Emits.trans {g middle last : Grammar} {kinds more : List EventKind} (first : Emits g kinds middle)
    (second : Emits middle more last) : Emits g (kinds ++ more) last := by
  obtain ⟨events, rfl, collects⟩ := first
  obtain ⟨events', rfl, collects'⟩ := second
  refine ⟨events ++ events', List.map_append, fun before fuel => ?_⟩
  rw [List.length_append, Nat.add_assoc, collects, collects']
  simp

theorem emits_one {g next : Grammar} {event : Event} (found : g.event? = some (event, next)) :
    Emits g [event.kind] next :=
  ⟨[event], rfl, fun before fuel => by simp [Nat.add_comm 1, collect, found]⟩

theorem Emits.cons {g next last : Grammar} {event : Event} {kinds : List EventKind}
    (found : g.event? = some (event, next)) (others : Emits next kinds last) :
    Emits g (event.kind :: kinds) last :=
  (emits_one found).trans others

/-! ## Tokens -/

/-- Tokens of these kinds, up to the rest of the tokens. -/
def Ahead (kinds : List TokenKind) (tokens rest : List Token) : Prop :=
  ∃ front : List Token, tokens = front ++ rest ∧ front.map Token.kind = kinds

theorem ahead_nil {tokens rest : List Token} : Ahead [] tokens rest ↔ tokens = rest := by
  simp [Ahead]

theorem ahead_cons {kind : TokenKind} {kinds : List TokenKind} {tokens rest : List Token} :
    Ahead (kind :: kinds) tokens rest ↔
      ∃ token more, tokens = token :: more ∧ token.kind = kind ∧ Ahead kinds more rest := by
  constructor
  · rintro ⟨front, rfl, same⟩
    obtain ⟨token, more, rfl, first, others⟩ := List.map_eq_cons_iff.mp same
    exact ⟨token, more ++ rest, rfl, first, more, rfl, others⟩
  · rintro ⟨token, more, rfl, rfl, front, rfl, rfl⟩
    exact ⟨token :: front, rfl, rfl⟩

theorem ahead_append {kinds more : List TokenKind} {tokens rest : List Token} :
    Ahead (kinds ++ more) tokens rest ↔ ∃ middle, Ahead kinds tokens middle ∧ Ahead more middle rest := by
  constructor
  · rintro ⟨front, rfl, same⟩
    obtain ⟨first, second, rfl, rfl, rfl⟩ := List.map_eq_append_iff.mp same
    exact ⟨second ++ rest, ⟨first, List.append_assoc .., rfl⟩, second, rfl, rfl⟩
  · rintro ⟨_, ⟨first, rfl, rfl⟩, second, rfl, rfl⟩
    exact ⟨first ++ second, (List.append_assoc ..).symm, List.map_append⟩

theorem head_treeKinds (valued : Bool) (tree : Tree) :
    ∃ kind more, treeKinds valued tree = kind :: more ∧ endsEntry kind = false ∧
      (valued = false → kind ≠ .blockEntry) := by
  cases tree with
  | list items =>
    cases items with
    | nil => exact ⟨_, _, rfl, rfl, by simp⟩
    | cons item rest => cases valued <;> exact ⟨_, _, rfl, rfl, by simp⟩
  | record entries => cases entries <;> exact ⟨_, _, rfl, rfl, by simp⟩
  | _ => exact ⟨_, _, rfl, rfl, by simp⟩

/-! ## Nodes -/

section

variable {token follower : Token} {more : List Token} {expecting after : Expecting}
  {pending : List Expecting} {handles : List (String × Tag)}

theorem node?_scalar {text : String} {style : Style} (kind : token.kind = .scalar text style)
    (block indentless : Bool) :
    (Grammar.mk (token :: more) expecting (after :: pending) handles).node? block indentless =
      some (⟨.scalar none ⟨text, style, none⟩, token.start⟩, ⟨more, after, pending, handles⟩) := by
  obtain ⟨_, first, last⟩ := token
  obtain rfl := kind
  simp [node?, properties, resolveTag?, next, pop]

theorem node?_flowSequence (kind : token.kind = .flowSequenceStart) (block indentless : Bool) :
    (Grammar.mk (token :: more) expecting pending handles).node? block indentless =
      some (⟨.sequenceStart none none, token.start⟩, ⟨more, .flowEntry true, pending, handles⟩) := by
  obtain ⟨_, first, last⟩ := token
  obtain rfl := kind
  simp [node?, properties, resolveTag?, next, expect]

theorem node?_flowMapping (kind : token.kind = .flowMappingStart) (block indentless : Bool) :
    (Grammar.mk (token :: more) expecting pending handles).node? block indentless =
      some (⟨.mappingStart none none, token.start⟩, ⟨more, .flowKey true, pending, handles⟩) := by
  obtain ⟨_, first, last⟩ := token
  obtain rfl := kind
  simp [node?, properties, resolveTag?, next, expect]

theorem node?_indentless (kind : token.kind = .blockEntry) :
    (Grammar.mk (token :: more) expecting pending handles).node? true true =
      some (⟨.sequenceStart none none, token.start⟩, ⟨token :: more, .indentlessEntry, pending, handles⟩) := by
  obtain ⟨_, first, last⟩ := token
  obtain rfl := kind
  simp [node?, properties, resolveTag?, expect]

theorem node?_blockSequence (kind : token.kind = .blockSequenceStart) (indentless : Bool) :
    (Grammar.mk (token :: more) expecting pending handles).node? true indentless =
      some (⟨.sequenceStart none none, token.start⟩, ⟨more, .sequenceEntry, pending, handles⟩) := by
  obtain ⟨_, first, last⟩ := token
  obtain rfl := kind
  simp [node?, properties, resolveTag?, next, expect]

theorem node?_blockMapping (kind : token.kind = .blockMappingStart) (indentless : Bool) :
    (Grammar.mk (token :: more) expecting pending handles).node? true indentless =
      some (⟨.mappingStart none none, token.start⟩, ⟨more, .mappingKey, pending, handles⟩) := by
  obtain ⟨_, first, last⟩ := token
  obtain rfl := kind
  simp [node?, properties, resolveTag?, next, expect]

/-! ## Entries -/

theorem event?_dash (entry : expecting = .sequenceEntry ∨ expecting = .indentlessEntry)
    (dash : token.kind = .blockEntry) (starts : endsEntry follower.kind = false)
    (other : follower.kind ≠ .blockEntry) :
    (Grammar.mk (token :: follower :: more) expecting pending handles).event? =
      (Grammar.mk (follower :: more) expecting (expecting :: pending) handles).node? true false := by
  have inside : follower.kind ≠ .blockEnd := by
    intro kind
    simp [endsEntry, kind] at starts
  rcases entry with rfl | rfl
  · simp [event?, sequenceEntry?, dash, next, push, other, inside]
  · simp [event?, indentlessEntry?, dash, next, push, other, starts]

theorem event?_key (key : token.kind = .key) (starts : endsEntry follower.kind = false) :
    (Grammar.mk (token :: follower :: more) .mappingKey pending handles).event? =
      (Grammar.mk (follower :: more) .mappingKey (.mappingValue :: pending) handles).node? true true := by
  simp [event?, mappingKey?, key, next, push, starts]

theorem event?_value (value : token.kind = .value) (starts : endsEntry follower.kind = false) :
    (Grammar.mk (token :: follower :: more) .mappingValue pending handles).event? =
      (Grammar.mk (follower :: more) .mappingValue (.mappingKey :: pending) handles).node? true true := by
  simp [event?, mappingValue?, value, next, push, starts]

theorem event?_blockEnd (close : token.kind = .blockEnd) :
    (Grammar.mk (token :: more) .sequenceEntry (after :: pending) handles).event? =
        some (⟨.sequenceEnd, token.start⟩, ⟨more, after, pending, handles⟩) ∧
      (Grammar.mk (token :: more) .mappingKey (after :: pending) handles).event? =
        some (⟨.mappingEnd, token.start⟩, ⟨more, after, pending, handles⟩) := by
  simp [event?, sequenceEntry?, mappingKey?, close, next, pop]

theorem event?_indentlessEnd (other : token.kind ≠ .blockEntry) :
    (Grammar.mk (token :: more) .indentlessEntry (after :: pending) handles).event? =
      some (⟨.sequenceEnd, token.start⟩, ⟨token :: more, after, pending, handles⟩) := by
  simp [event?, indentlessEntry?, other, pop]

theorem event?_flowEnd :
    (token.kind = .flowSequenceEnd →
      (Grammar.mk (token :: more) (.flowEntry true) (after :: pending) handles).event? =
        some (⟨.sequenceEnd, token.start⟩, ⟨more, after, pending, handles⟩)) ∧
    (token.kind = .flowMappingEnd →
      (Grammar.mk (token :: more) (.flowKey true) (after :: pending) handles).event? =
        some (⟨.mappingEnd, token.start⟩, ⟨more, after, pending, handles⟩)) := by
  constructor <;> intro close
  · simp [event?, flowEntry?, comma?, close, next, pop]
  · simp [event?, flowKey?, comma?, close, next, pop]

/-! ## Trees -/

theorem emits_scalar {g : Grammar} {text : String} {style : Style} {tokens rest : List Token} {valued : Bool}
    (asked : g.event? = (Grammar.mk tokens expecting (after :: pending) handles).node? true valued)
    (ahead : Ahead [.scalar text style] tokens rest) :
    Emits g [.scalar none ⟨text, style, none⟩] ⟨rest, after, pending, handles⟩ := by
  obtain ⟨token, more, rfl, kind, left⟩ := ahead_cons.mp ahead
  obtain rfl := ahead_nil.mp left
  rw [node?_scalar kind] at asked
  exact emits_one asked

theorem emits_brackets {g : Grammar} {tokens rest : List Token} {valued : Bool}
    (asked : g.event? = (Grammar.mk tokens expecting (after :: pending) handles).node? true valued) :
    (Ahead [.flowSequenceStart, .flowSequenceEnd] tokens rest →
      Emits g [.sequenceStart none none, .sequenceEnd] ⟨rest, after, pending, handles⟩) ∧
    (Ahead [.flowMappingStart, .flowMappingEnd] tokens rest →
      Emits g [.mappingStart none none, .mappingEnd] ⟨rest, after, pending, handles⟩) := by
  constructor <;> intro ahead <;> obtain ⟨start, _, rfl, kind, ahead⟩ := ahead_cons.mp ahead <;>
    obtain ⟨stop, more, rfl, kind', left⟩ := ahead_cons.mp ahead <;> obtain rfl := ahead_nil.mp left
  · rw [node?_flowSequence kind] at asked
    exact .cons asked (emits_one (event?_flowEnd.1 kind'))
  · rw [node?_flowMapping kind] at asked
    exact .cons asked (emits_one (event?_flowEnd.2 kind'))

end

/-- What stands behind the value of a key is no dash, which would belong to the value. -/
def Apart (rest : List Token) : Prop := ∃ token more, rest = token :: more ∧ token.kind ≠ .blockEntry

mutual

theorem emits_tree {g : Grammar} {tokens rest : List Token} {expecting after : Expecting}
    {pending : List Expecting} {handles : List (String × Tag)} {valued : Bool}
    (asked : g.event? = (Grammar.mk tokens expecting (after :: pending) handles).node? true valued) :
    (tree : Tree) → Ahead (treeKinds valued tree) tokens rest → (valued = true → Apart rest) →
      Emits g (treeEvents tree) ⟨rest, after, pending, handles⟩
  | .null, ahead, _ | .boolean _, ahead, _ | .natural _, ahead, _ | .text _, ahead, _ =>
    emits_scalar asked ahead
  | .list [], ahead, _ => (emits_brackets asked).1 ahead
  | .record [], ahead, _ => (emits_brackets asked).2 ahead
  | .list (item :: items), ahead, behind => by
    cases valued with
    | true =>
      -- As the value of a key a list has no block of its own, and ends where no further dash stands.
      obtain ⟨dash, more, rfl, kind, -⟩ := ahead_cons.mp ahead
      obtain ⟨token, more', rfl, other⟩ := behind rfl
      rw [node?_indentless kind] at asked
      exact .cons asked
        ((emits_items (.inr rfl) (item :: items) ahead).trans (emits_one (event?_indentlessEnd other)))
    | false =>
      obtain ⟨token, _, rfl, kind, inner⟩ := ahead_cons.mp ahead
      obtain ⟨middle, parts, closing⟩ := ahead_append.mp inner
      obtain ⟨close, _, rfl, kind', left⟩ := ahead_cons.mp closing
      obtain rfl := ahead_nil.mp left
      rw [node?_blockSequence kind] at asked
      exact .cons asked
        ((emits_items (.inl rfl) (item :: items) parts).trans (emits_one (event?_blockEnd kind').1))
  | .record (entry :: entries), ahead, _ => by
    obtain ⟨token, _, rfl, kind, inner⟩ := ahead_cons.mp ahead
    obtain ⟨middle, parts, closing⟩ := ahead_append.mp inner
    obtain ⟨close, more, rfl, kind', left⟩ := ahead_cons.mp closing
    obtain rfl := ahead_nil.mp left
    rw [node?_blockMapping kind] at asked
    have apart : Apart (close :: more) := ⟨close, more, rfl, by simp [kind']⟩
    exact .cons asked ((emits_entries (entry :: entries) parts apart).trans (emits_one (event?_blockEnd kind').2))

theorem emits_items {tokens rest : List Token} {expecting : Expecting} {pending : List Expecting}
    {handles : List (String × Tag)}
    (entry : expecting = .sequenceEntry ∨ expecting = .indentlessEntry) :
    (items : List Tree) → Ahead (itemKinds items) tokens rest →
      Emits ⟨tokens, expecting, pending, handles⟩ (itemEvents items) ⟨rest, expecting, pending, handles⟩
  | [], ahead => by
    obtain rfl := ahead_nil.mp ahead
    exact .refl _
  | item :: items, ahead => by
    obtain ⟨dash, more, rfl, kind, inner⟩ := ahead_cons.mp ahead
    obtain ⟨middle, part, others⟩ := ahead_append.mp inner
    obtain ⟨head, kinds, whole, starts, other⟩ := head_treeKinds false item
    obtain ⟨follower, tail, rfl, rfl, -⟩ := ahead_cons.mp (whole ▸ part)
    exact (emits_tree (event?_dash entry kind starts (other rfl)) item part (by simp)).trans
      (emits_items entry items others)

theorem emits_entries {tokens rest : List Token} {pending : List Expecting}
    {handles : List (String × Tag)} :
    (entries : List (String × Tree)) → Ahead (entryKinds entries) tokens rest → Apart rest →
      Emits ⟨tokens, .mappingKey, pending, handles⟩ (entryEvents entries) ⟨rest, .mappingKey, pending, handles⟩
  | [], ahead, _ => by
    obtain rfl := ahead_nil.mp ahead
    exact .refl _
  | (name, value) :: entries, ahead, apart => by
    obtain ⟨key, _, rfl, key', behindKey⟩ := ahead_cons.mp ahead
    obtain ⟨word, _, rfl, word', behindWord⟩ := ahead_cons.mp behindKey
    obtain ⟨colon, more, rfl, colon', inner⟩ := ahead_cons.mp behindWord
    obtain ⟨middle, part, others⟩ := ahead_append.mp inner
    obtain ⟨head, kinds, whole, starts, -⟩ := head_treeKinds true value
    obtain ⟨follower, tail, rfl, rfl, -⟩ := ahead_cons.mp (whole ▸ part)
    have behind : Apart middle := by
      cases entries with
      | nil => exact (ahead_nil.mp others) ▸ apart
      | cons entry entries =>
        obtain ⟨next, more, rfl, kind, -⟩ := ahead_cons.mp others
        exact ⟨next, more, rfl, by simp [kind]⟩
    exact .cons ((event?_key key' (by simp [word', endsEntry])).trans (node?_scalar word' true true))
      ((emits_tree (event?_value colon' starts) value part fun _ => behind).trans
        (emits_entries entries others apart))

end

/-! ## Documents -/

theorem event?_documentStart {token : Token} {more : List Token} (kind : token.kind = .blockMappingStart) :
    (start (token :: more)).event? = some (⟨.documentStart, token.start⟩,
      ⟨token :: more, .blockNode, [.documentEnd], standardHandles⟩) := by
  obtain ⟨_, first, last⟩ := token
  obtain rfl := kind
  simp [start, event?, document?, directives?, push, expect]

theorem event?_documentEnd {token : Token} (kind : token.kind = .streamEnd) (more : List Token)
    (handles : List (String × Tag)) :
    (Grammar.mk (token :: more) .documentEnd [] handles).event? =
        some (⟨.documentEnd, token.start⟩, ⟨token :: more, .document false, [], []⟩) ∧
      (Grammar.mk (token :: more) (.document false) [] []).event? =
        some (⟨.streamEnd, token.start⟩, ⟨token :: more, .nothing, [], []⟩) := by
  simp [event?, documentEnd?, document?, kind, expect]

theorem emits_document {entries : List (String × Tree)} (filled : entries ≠ []) {tokens : List Token}
    (ahead : Ahead (treeKinds false (.record entries) ++ [.streamEnd]) tokens []) :
    ∃ last, Emits (start tokens) (.documentStart :: treeEvents (.record entries) ++ [.documentEnd, .streamEnd])
      last ∧ last.expecting = .nothing := by
  obtain ⟨middle, part, closing⟩ := ahead_append.mp ahead
  obtain ⟨close, more, rfl, kind, -⟩ := ahead_cons.mp closing
  obtain ⟨entry, rest, rfl⟩ := List.exists_cons_of_ne_nil filled
  obtain ⟨token, tail, rfl, kind', -⟩ := ahead_cons.mp part
  obtain ⟨ended, finished⟩ := event?_documentEnd kind more standardHandles
  exact ⟨_, .cons (event?_documentStart kind')
    ((emits_tree rfl (.record (entry :: rest)) part (by simp)).trans (.cons ended (emits_one finished))), rfl⟩

/-- Events that end in the end of the stream are all there are. -/
theorem collect_of_emits {g last : Grammar} {kinds : List EventKind} (emits : Emits g kinds last)
    (ended : last.expecting = .nothing) {fuel : Nat} (enough : kinds.length ≤ fuel) :
    (g.collect [] fuel).map Event.kind = kinds := by
  obtain ⟨events, rfl, collects⟩ := emits
  obtain ⟨rest, rfl⟩ := Nat.exists_eq_add_of_le (List.length_map Event.kind ▸ enough)
  rw [collects]
  cases rest <;> simp [collect, event?, ended]

end Grammar

theorem tokens_print {entries : List (String × Tree)} (verbal : VerbalEntries entries) (filled : entries ≠ []) :
    (Stream.ofBytes (print (.record entries)).toUTF8).tokens.map Token.kind =
      treeKinds false (.record entries) ++ [.streamEnd] := by
  obtain ⟨count, last, fetches, ended, none, kinds, paid⟩ := fetches_document verbal filled
  have dated : Lexer.Dated (.start ⟨(treeLines (.record entries)).flatten, true⟩) := by
    intro start member key one
    exact Nat.zero_le _
  have collected := Lexer.collect_of_fetches (16 * (treeLines (.record entries)).flatten.length + 64) []
    dated rfl fetches ended none (by rw [List.length_nil]; omega)
  rw [List.reverse_nil] at collected
  rw [ofBytes_print (show (Tree.record entries).Verbal from verbal), Stream.tokens, collected, kinds]
  simp [treeKinds, filled]

theorem events_print {entries : List (String × Tree)} (verbal : VerbalEntries entries) (filled : entries ≠ []) :
    (Event.ofBytes (print (.record entries)).toUTF8).map Event.kind =
      .documentStart :: treeEvents (.record entries) ++ [.documentEnd, .streamEnd] := by
  have kinds := tokens_print verbal filled
  obtain ⟨last, emits, ended⟩ := Grammar.emits_document filled
    ⟨_, (List.append_nil _).symm, kinds⟩
  refine Grammar.collect_of_emits emits ended ?_
  have tree := length_treeEvents false (.record entries)
  have long := congrArg List.length kinds
  simp at long ⊢
  omega

end PolicyDiagram.Yaml
