import PolicyDiagram.Proofs.Yaml.Events
import PolicyDiagram.Proofs.Yaml.Reading

/-! The document that the events of a printed tree make up. It spells the tree, and nothing follows it. -/

namespace PolicyDiagram.Yaml

open Data (Shape Tree VerbalItems VerbalEntries)

namespace Composer

/-- A composer that has counted so many events. -/
def counting (s : Composer) (events : Nat) : Composer := { s with events }

/-- A composer with one more open collection. -/
def under (s : Composer) (frame : Frame) : Composer := { s with frames := frame :: s.frames }

theorem count_give (s : Composer) (node : Node) : (s.give node).count = (s.counting (s.events + 1)).give node := by
  obtain ⟨frames, root, names, places, finished, events⟩ := s
  rcases frames with _ | ⟨_ | ⟨mark, tag, ordinal, entries, _ | key⟩, rest⟩ <;> rfl

theorem compose_scalar (s : Composer) (mark : Mark) (scalar : Scalar) (rest : List Event) :
    compose s (⟨.scalar none scalar, mark⟩ :: rest) =
      compose ((s.counting (s.events + 1)).give (.scalar mark scalar)) rest := by
  rw [← count_give]
  rfl

theorem compose_sequenceEnd (s : Composer) (mark mark' : Mark) (items : List Node) (rest : List Event) :
    compose (s.under (.sequence mark none none items)) (⟨.sequenceEnd, mark'⟩ :: rest) =
      compose ((s.counting (s.events + 1)).give (.sequence mark none items.reverse true)) rest := by
  rw [← count_give]
  rfl

theorem compose_mappingEnd (s : Composer) (mark mark' : Mark) (entries : List (Node × Node)) (key : Option Node)
    (rest : List Event) :
    compose (s.under (.mapping mark none none entries key)) (⟨.mappingEnd, mark'⟩ :: rest) =
      compose ((s.counting (s.events + 1)).give (.mapping mark none entries.reverse true)) rest := by
  rw [← count_give]
  rfl

theorem cons_of_map {kind : EventKind} {kinds : List EventKind} {events : List Event}
    (same : events.map Event.kind = kind :: kinds) :
    ∃ mark more, events = ⟨kind, mark⟩ :: more ∧ more.map Event.kind = kinds := by
  obtain ⟨⟨_, mark⟩, more, rfl, rfl, others⟩ := List.map_eq_cons_iff.mp same
  exact ⟨mark, more, rfl, others⟩

theorem single_of_map {kind : EventKind} {events : List Event} (same : events.map Event.kind = [kind]) :
    ∃ mark, events = [⟨kind, mark⟩] := by
  obtain ⟨mark, more, rfl, others⟩ := cons_of_map same
  exact ⟨mark, by rw [List.map_eq_nil_iff.mp others]⟩

theorem shown_of_plain {value : String} (style : styleFor value.toList = .plain) :
    value.isEmpty = false ∧ isNullWord value = false := by
  obtain ⟨-, -, -, meaning, -⟩ := plain_of_style style
  rw [String.ofList_toList] at meaning
  rw [← Bool.not_eq_true, ← Bool.not_eq_true, ← not_or]
  intro nothing
  rw [Meaning.ofPlain, if_pos nothing] at meaning
  exact nomatch meaning

mutual

theorem composes_tree : (tree : Tree) → tree.Verbal → ∀ (s : Composer) (events rest : List Event),
    events.map Event.kind = treeEvents tree →
    ∃ node count, Spells tree node ∧ compose s (events ++ rest) = compose ((s.counting count).give node) rest
  | .null, _, s, _, rest, same => by
    obtain ⟨mark, rfl⟩ := single_of_map same
    exact ⟨_, _, ⟨mark, rfl⟩, compose_scalar s mark _ rest⟩
  | .boolean _, verbal, _, _, _, _ => verbal.elim
  | .natural _, verbal, _, _, _, _ => verbal.elim
  | .text value, _, s, _, rest, same => by
    obtain ⟨mark, rfl⟩ := single_of_map same
    exact ⟨_, _, ⟨mark, styleFor value.toList, rfl, shown_of_plain⟩, compose_scalar s mark _ rest⟩
  | .list items, verbal, s, _, rest, same => by
    obtain ⟨mark, more, rfl, others⟩ := cons_of_map same
    obtain ⟨inner, closing, rfl, parts, closed⟩ := List.map_eq_append_iff.mp others
    obtain ⟨mark', rfl⟩ := single_of_map closed
    obtain ⟨nodes, count, spells, composed⟩ := composes_items items verbal
      (s.counting (s.events + 1)) mark [] inner (⟨.sequenceEnd, mark'⟩ :: rest) parts
    refine ⟨.sequence mark none nodes true, count + 1, ⟨mark, nodes, rfl, spells⟩, ?_⟩
    -- The items are composed inside of the open list, which the event behind them closes.
    have started : compose s (⟨.sequenceStart none none, mark⟩ :: (inner ++ [⟨.sequenceEnd, mark'⟩]) ++ rest) =
        compose ((s.counting (s.events + 1)).under (.sequence mark none none []))
          (inner ++ ⟨.sequenceEnd, mark'⟩ :: rest) := by
      rw [List.cons_append, List.append_assoc]
      rfl
    rw [started, composed, compose_sequenceEnd, List.append_nil, List.reverse_reverse]
    rfl
  | .record entries, verbal, s, _, rest, same => by
    obtain ⟨mark, more, rfl, others⟩ := cons_of_map same
    obtain ⟨inner, closing, rfl, parts, closed⟩ := List.map_eq_append_iff.mp others
    obtain ⟨mark', rfl⟩ := single_of_map closed
    obtain ⟨nodes, count, spells, composed⟩ := composes_entries entries verbal
      (s.counting (s.events + 1)) mark [] inner (⟨.mappingEnd, mark'⟩ :: rest) parts
    refine ⟨.mapping mark none nodes true, count + 1, ⟨mark, nodes, rfl, spells⟩, ?_⟩
    have started : compose s (⟨.mappingStart none none, mark⟩ :: (inner ++ [⟨.mappingEnd, mark'⟩]) ++ rest) =
        compose ((s.counting (s.events + 1)).under (.mapping mark none none [] none))
          (inner ++ ⟨.mappingEnd, mark'⟩ :: rest) := by
      rw [List.cons_append, List.append_assoc]
      rfl
    rw [started, composed, compose_mappingEnd, List.append_nil, List.reverse_reverse]
    rfl

theorem composes_items : (items : List Tree) → VerbalItems items →
    ∀ (s : Composer) (mark : Mark) (done : List Node) (events rest : List Event),
    events.map Event.kind = itemEvents items →
    ∃ nodes count, SpellItems items nodes ∧
      compose (s.under (.sequence mark none none done)) (events ++ rest) =
        compose ((s.counting count).under (.sequence mark none none (nodes.reverse ++ done))) rest
  | [], _, s, mark, done, events, rest, same => by
    obtain rfl := List.map_eq_nil_iff.mp same
    exact ⟨[], s.events, rfl, rfl⟩
  | item :: items, verbal, s, mark, done, _, rest, same => by
    obtain ⟨first, others, rfl, part, parts⟩ := List.map_eq_append_iff.mp same
    obtain ⟨node, count, spells, composed⟩ := composes_tree item verbal.1
      (s.under (.sequence mark none none done)) first (others ++ rest) part
    obtain ⟨nodes, count', spells', composed'⟩ := composes_items items verbal.2 (s.counting count) mark
      (node :: done) others rest parts
    refine ⟨node :: nodes, count', ⟨node, nodes, rfl, spells, spells'⟩, ?_⟩
    rw [List.append_assoc, composed, List.reverse_cons, List.append_assoc]
    exact composed'

theorem composes_entries : (entries : List (String × Tree)) → VerbalEntries entries →
    ∀ (s : Composer) (mark : Mark) (done : List (Node × Node)) (events rest : List Event),
    events.map Event.kind = entryEvents entries →
    ∃ nodes count, SpellEntries entries nodes ∧
      compose (s.under (.mapping mark none none done none)) (events ++ rest) =
        compose ((s.counting count).under (.mapping mark none none (nodes.reverse ++ done) none)) rest
  | [], _, s, mark, done, events, rest, same => by
    obtain rfl := List.map_eq_nil_iff.mp same
    exact ⟨[], s.events, rfl, rfl⟩
  | (name, value) :: entries, verbal, s, mark, done, _, rest, same => by
    obtain ⟨place, more, rfl, behind⟩ := cons_of_map same
    obtain ⟨first, others, rfl, part, parts⟩ := List.map_eq_append_iff.mp behind
    obtain ⟨node, count, spells, composed⟩ := composes_tree value verbal.2.1
      ((s.counting (s.events + 1)).under (.mapping mark none none done (some (.scalar place ⟨name, .plain, none⟩))))
      first (others ++ rest) part
    obtain ⟨nodes, count', spells', composed'⟩ := composes_entries entries verbal.2.2 (s.counting count) mark
      ((.scalar place ⟨name, .plain, none⟩, node) :: done) others rest parts
    refine ⟨(.scalar place ⟨name, .plain, none⟩, node) :: nodes, count', ⟨place, node, nodes, rfl, spells, spells'⟩, ?_⟩
    rw [List.cons_append, compose_scalar, List.append_assoc, List.reverse_cons, List.append_assoc]
    exact composed.trans composed'

end

end Composer

theorem spells_print {entries : List (String × Tree)} (verbal : VerbalEntries entries) (filled : entries ≠ []) :
    Spells (.record entries) (Content.ofBytes (print (.record entries)).toUTF8).root ∧
      (Content.ofBytes (print (.record entries)).toUTF8).fault = none ∧
      (Content.ofBytes (print (.record entries)).toUTF8).followed = false := by
  obtain ⟨mark, events, whole, others⟩ := Composer.cons_of_map (events_print verbal filled)
  obtain ⟨inner, closing, rfl, parts, closed⟩ := List.map_eq_append_iff.mp others
  obtain ⟨mark', _, rfl, ended⟩ := Composer.cons_of_map closed
  obtain ⟨mark'', rfl⟩ := Composer.single_of_map ended
  obtain ⟨node, count, spells, composed⟩ := Composer.composes_tree (.record entries) verbal .start inner
    [⟨.documentEnd, mark'⟩, ⟨.streamEnd, mark''⟩] parts
  have content : Content.ofBytes (print (.record entries)).toUTF8 =
      ⟨node, [], count, none, false⟩ := by
    rw [Content.ofBytes, whole]
    exact composed
  rw [content]
  exact ⟨spells, rfl, rfl⟩

/-- Whatever a shape writes as a record that is not empty is read back from its text. -/
theorem decode_print {α : Type} (shape : Shape α) (verbal : shape.Verbal) {value : α}
    (recovers : shape.Recovers value) {entries : List (String × Tree)}
    (written : shape.write value = .record entries) (filled : entries ≠ []) :
    decode shape (print (shape.write value)).toUTF8 = .ok value := by
  have wordy : (Tree.record entries).Verbal := written ▸ shape.write_verbal verbal value
  obtain ⟨spells, sound, only⟩ := spells_print wordy filled
  rw [← written] at spells sound only
  exact decode_of_spells shape recovers spells sound only

end PolicyDiagram.Yaml
