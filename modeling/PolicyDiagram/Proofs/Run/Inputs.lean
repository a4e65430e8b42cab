import PolicyDiagram.Proofs.Files.Follow
import PolicyDiagram.Run.Pipeline

/-! The fragments of a run are only read. An accepted configuration names an output that leads to none of its
fragments, and a run writes where the output asks for a file, which is where the output leads if something is
there already. It writes nowhere else, even if the writing fails. -/

namespace PolicyDiagram

theorem Config.not_clash_of_validate {fs : FileSystem} {config : Config} {output path : Path}
    (valid : config.validate fs = .ok ()) (named : config.output = some output)
    (listed : path ∈ config.files) : Config.clash fs path output = false := by
  simp only [Config.validate, named] at valid
  split at valid
  · contradiction
  · split at valid
    · contradiction
    · rename_i none_clash
      rw [List.any_eq_true, not_exists] at none_clash
      have here := none_clash path
      simpa [listed] using here

namespace Run

theorem accept_ok {fs : FileSystem} {config accepted : Config}
    (ok : accept fs config = .ok accepted) : accepted = config ∧ config.validate fs = .ok () := by
  unfold accept at ok
  split at ok
  · rename_i valid
    exact ⟨(Except.ok.inj ok).symm, valid⟩
  · contradiction

/-- What a run can do to the files: nothing, or one file is written where the output asks for it. -/
theorem files_deliverOn (medium : Medium) (world : World) (config : Config) :
    (deliverOn medium world config).2.files = world.files ∨
      ∃ output place content, config.output = some output ∧ world.files.newPlace output = .ok place ∧
        (deliverOn medium world config).2.files = world.files.put place (.file content) := by
  unfold deliverOn
  split
  · exact .inl rfl
  · rename_i prepared _
    split
    · exact .inl rfl
    · rename_i output named
      unfold FileSystem.create
      cases asked : world.files.newPlace output with
      | error fault => exact .inl rfl
      | ok place =>
        refine .inr ⟨output, place, (medium (config.outputFormat.wrap prepared.diagram).toUTF8).2, named, asked, ?_⟩
        have written := FileSystem.put_put world.files place (.file .empty)
        dsimp only
        split <;> exact written _

theorem fragment_ne_output {fs : FileSystem} {config : Config} {output path : Path}
    {place written : Location} (valid : config.validate fs = .ok ())
    (named : config.output = some output) (asked : fs.newPlace output = .ok written)
    (listed : path ∈ config.files) (located : fs.locate path = .ok place)
    (present : (fs.node place).isSome) : place ≠ written := by
  rintro rfl
  have same := FileSystem.locate_of_newPlace asked present
  have apart := Config.not_clash_of_validate valid named listed
  simp [Config.clash, FileSystem.sameFile, located, same] at apart

/-- However a run ends, and whatever becomes of the bytes that it writes, each file that an accepted
configuration lists as a fragment is still there under its path, with the same bytes. -/
theorem deliver_keeps_fragments (medium : Medium) {world : World} {config accepted : Config}
    (ok : accept world.files config = .ok accepted) {path : Path} (listed : path ∈ accepted.files)
    {place : Location} (located : world.files.locate path = .ok place) {content : ByteArray}
    (file : world.files.node place = some (.file content)) :
    (deliverOn medium world accepted).2.files.node place = some (.file content) ∧
      (deliverOn medium world accepted).2.files.read path = .ok content := by
  obtain ⟨rfl, valid⟩ := accept_ok ok
  have read_of : ∀ files : FileSystem, files.locate path = .ok place →
      files.node place = some (.file content) →
      files.node place = some (.file content) ∧ files.read path = .ok content := by
    intro files found here
    refine ⟨here, ?_⟩
    simp [FileSystem.read, found, bind, Except.bind, FileSystem.content, here]
  rcases files_deliverOn medium world accepted with unchanged | ⟨output, written, text, named, asked, changed⟩
  · rw [unchanged]
    exact read_of world.files located file
  · have apart := fragment_ne_output valid named asked listed located (by simp [file])
    rw [changed]
    apply read_of
    · exact FileSystem.locate_put (FileSystem.writable_of_newPlace asked) _ located apart
    · rw [FileSystem.node_put_of_ne _ _ apart, file]

/-- A directory with a fragment, and a link to a diagram that has not been made yet. -/
def desk : World where
  files :=
    { node := fun
        | [] | ["desk"] | ["nested", "desk"] => some .directory
        | ["policy.yaml", "desk"] => some (.file "unions: []".toUTF8)
        | ["latest", "desk"] => some (.link ⟨"./nested/diagram.md"⟩)
        | _ => none
      workingDirectory := ["desk"] }
  printed := ""

/-- A run of which the disk takes eight bytes and no more. -/
theorem deliver_keeps_fragment_of_desk :
    (deliverOn (.ofSize 8) desk ⟨[⟨"nested/..//policy.yaml"⟩], .markdown, some ⟨"latest"⟩⟩).2.files.read
        ⟨"nested/..//policy.yaml"⟩ = .ok "unions: []".toUTF8 ∧
      (deliver desk ⟨[⟨"nested/..//policy.yaml"⟩], .markdown, some ⟨"latest"⟩⟩).2.files.read
        ⟨"nested/..//policy.yaml"⟩ = .ok "unions: []".toUTF8 := by
  have ok : accept desk.files ⟨[⟨"nested/..//policy.yaml"⟩], .markdown, some ⟨"latest"⟩⟩ =
      .ok ⟨[⟨"nested/..//policy.yaml"⟩], .markdown, some ⟨"latest"⟩⟩ := by decide +kernel
  have located : desk.files.locate ⟨"nested/..//policy.yaml"⟩ = .ok ["policy.yaml", "desk"] := by
    decide +kernel
  exact ⟨(deliver_keeps_fragments (.ofSize 8) ok (List.mem_singleton_self _) located rfl).2,
    (deliver_keeps_fragments .whole ok (List.mem_singleton_self _) located rfl).2⟩

end Run

end PolicyDiagram
