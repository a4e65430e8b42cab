import PolicyDiagram.Files.FileSystem
import PolicyDiagram.Proofs.Outcome

/-! Where paths lead, and what a write elsewhere does to that. A path that asks for a new file and a path that
is looked up are followed by two functions; they agree wherever there is something. A write at a place where a
file may stand changes no path that leads to another place, since only directories and links are passed on the
way. -/

namespace PolicyDiagram.FileSystem

/-- A place where a file may be written: there is a file or nothing. -/
def Writable (fs : FileSystem) (place : Location) : Prop :=
  fs.node place ≠ some .directory ∧ ∀ target, fs.node place ≠ some (.link target)

theorem enter_ok {fs : FileSystem} {place : Location} {token : Unit}
    (entered : fs.enter place = .ok token) : fs.node place = some .directory := by
  unfold enter at entered
  split at entered
  · assumption
  · contradiction
  · contradiction

theorem enter_of_directory {fs : FileSystem} {place : Location}
    (directory : fs.node place = some .directory) : fs.enter place = .ok () := by
  simp [enter, directory]

/-! ## One stretch between two links -/

theorem advance_cons {fs : FileSystem} {place : Location} {segment : String} {rest : List String}
    {progress : Progress} (done : fs.advance place (segment :: rest) = .ok progress) :
    fs.node place = some .directory ∧ ∃ next named, destination place segment = .ok (next, named) ∧
      ((∃ target, fs.node next = some (.link target) ∧ progress = .linked place target rest) ∨
        ((fs.node next).isSome ∧ (∀ target, fs.node next ≠ some (.link target)) ∧
          fs.advance next rest = .ok progress)) := by
  unfold advance at done
  obtain ⟨_, entered, done⟩ := bind_eq_ok.mp done
  obtain ⟨⟨next, named⟩, reached, done⟩ := bind_eq_ok.mp done
  refine ⟨enter_ok entered, next, named, reached, ?_⟩
  cases found : fs.node next with
  | none => simp [found] at done
  | some node =>
    cases node with
    | link target =>
      simp only [found] at done
      exact .inl ⟨target, rfl, (Except.ok.inj done).symm⟩
    | file content =>
      simp only [found] at done
      exact .inr ⟨rfl, by simp, done⟩
    | directory =>
      simp only [found] at done
      exact .inr ⟨rfl, by simp, done⟩

theorem advance_link {fs : FileSystem} {place next : Location} {segment : String} {named : Bool}
    {target : Path} (rest : List String) (directory : fs.node place = some .directory)
    (reached : destination place segment = .ok (next, named))
    (found : fs.node next = some (.link target)) :
    fs.advance place (segment :: rest) = .ok (.linked place target rest) := by
  simp [advance, bind, Except.bind, enter_of_directory directory, reached, found]

theorem advance_past {fs : FileSystem} {place next : Location} {segment : String} {named : Bool}
    (rest : List String) (directory : fs.node place = some .directory)
    (reached : destination place segment = .ok (next, named)) (found : (fs.node next).isSome)
    (no_link : ∀ target, fs.node next ≠ some (.link target)) :
    fs.advance place (segment :: rest) = fs.advance next rest := by
  obtain ⟨node, here⟩ := Option.isSome_iff_exists.mp found
  simp only [advance, bind, Except.bind, enter_of_directory directory, reached, here]
  cases node with
  | file content => rfl
  | directory => rfl
  | link target => exact absurd here (no_link target)

theorem advanceNew_cons {fs : FileSystem} {place : Location} {segment : String} {rest : List String}
    {progress : Progress} (done : fs.advanceNew place (segment :: rest) = .ok progress) :
    fs.node place = some .directory ∧ ∃ next named, destination place segment = .ok (next, named) ∧
      ((∃ target, fs.node next = some (.link target) ∧ progress = .linked place target rest) ∨
        (rest = [] ∧ fs.Writable next ∧ progress = .arrived next) ∨
        ((fs.node next).isSome ∧ (∀ target, fs.node next ≠ some (.link target)) ∧
          fs.advanceNew next rest = .ok progress)) := by
  unfold advanceNew at done
  obtain ⟨_, entered, done⟩ := bind_eq_ok.mp done
  obtain ⟨⟨next, named⟩, reached, done⟩ := bind_eq_ok.mp done
  refine ⟨enter_ok entered, next, named, reached, ?_⟩
  -- The first choice is about a segment with nothing but slashes behind it.
  dsimp only at done
  split at done
  · split at done
    · contradiction
    · rename_i no_directory
      split at done
      · contradiction
      · rename_i plain
        have last : rest = [] := by
          cases rest with
          | nil => rfl
          | cons other others => simp at plain
        split at done
        · rename_i target found
          exact .inl ⟨target, found, by rw [last, (Except.ok.inj done).symm]⟩
        · rename_i no_link
          exact .inr (.inl ⟨last, ⟨no_directory, no_link⟩, (Except.ok.inj done).symm⟩)
  · split at done
    · contradiction
    · rename_i target found
      exact .inl ⟨target, found, (Except.ok.inj done).symm⟩
    · rename_i node no_link found
      refine .inr (.inr ⟨by simp [found], ?_, done⟩)
      intro target same
      rw [found] at same
      exact no_link target (Option.some.inj same)

theorem writable_of_advanceNew {fs : FileSystem} {place reached : Location} {segments : List String}
    (done : fs.advanceNew place segments = .ok (.arrived reached)) : fs.Writable reached := by
  induction segments generalizing place with
  | nil => simp [advanceNew] at done
  | cons segment rest ih =>
    obtain ⟨_, next, named, _, linked | last | past⟩ := advanceNew_cons done
    · obtain ⟨_, _, impossible⟩ := linked
      cases impossible
    · obtain ⟨_, writable, same⟩ := last
      cases same
      exact writable
    · exact ih past.2.2

/-- Where there is something, asking for a file and looking it up go the same way. -/
theorem advance_of_advanceNew {fs : FileSystem} {place : Location} {segments : List String}
    {progress : Progress} (done : fs.advanceNew place segments = .ok progress)
    (present : ∀ reached, progress = .arrived reached → (fs.node reached).isSome) :
    fs.advance place segments = .ok progress := by
  induction segments generalizing place with
  | nil => simp [advanceNew] at done
  | cons segment rest ih =>
    obtain ⟨directory, next, named, reached, linked | last | past⟩ := advanceNew_cons done
    · obtain ⟨target, found, rfl⟩ := linked
      exact advance_link rest directory reached found
    · obtain ⟨rfl, writable, rfl⟩ := last
      rw [advance_past [] directory reached (present next rfl) writable.2]
      rfl
    · obtain ⟨found, no_link, more⟩ := past
      rw [advance_past rest directory reached found no_link]
      exact ih more

/-- A write changes no way that does not end at the written place. -/
theorem advance_put {fs : FileSystem} {written : Location} (writable : fs.Writable written)
    (node : FileNode) {place : Location} {segments : List String} {progress : Progress}
    (done : fs.advance place segments = .ok progress) (elsewhere : progress ≠ .arrived written) :
    (fs.put written node).advance place segments = .ok progress := by
  induction segments generalizing place with
  | nil => exact done
  | cons segment rest ih =>
    obtain ⟨directory, next, named, reached, outcome⟩ := advance_cons done
    -- The way passes directories only, and no file is written in the place of one.
    have not_here : place ≠ written := by
      rintro rfl
      exact writable.1 directory
    have directory' : (fs.put written node).node place = some .directory := by
      rw [node_put_of_ne fs node not_here, directory]
    rcases outcome with ⟨target, found, rfl⟩ | ⟨found, no_link, more⟩
    · have not_next : next ≠ written := by
        rintro rfl
        exact writable.2 target found
      apply advance_link rest directory' reached
      rw [node_put_of_ne fs node not_next, found]
    · have not_next : next ≠ written := by
        rintro rfl
        cases rest with
        | nil =>
          cases more
          exact elsewhere rfl
        | cons other others => exact writable.1 (advance_cons more).1
      rw [advance_past rest directory' reached]
      · exact ih more
      · rw [node_put_of_ne fs node not_next]
        exact found
      · intro target
        rw [node_put_of_ne fs node not_next]
        exact no_link target

theorem directory_of_advanceNew {fs : FileSystem} {place : Location} {segments : List String}
    {progress : Progress} (done : fs.advanceNew place segments = .ok progress) :
    fs.node place = some .directory := by
  cases segments with
  | nil => simp [advanceNew] at done
  | cons segment rest => exact (advanceNew_cons done).1

/-- A written file changes no way to a new file, not even the way to itself. -/
theorem advanceNew_put {fs : FileSystem} {written : Location} (writable : fs.Writable written)
    (content : ByteArray) {place : Location} {segments : List String} {progress : Progress}
    (done : fs.advanceNew place segments = .ok progress) :
    (fs.put written (.file content)).advanceNew place segments = .ok progress := by
  induction segments generalizing place with
  | nil => simp [advanceNew] at done
  | cons segment rest ih =>
    have directory := directory_of_advanceNew done
    have not_here : place ≠ written := by
      rintro rfl
      exact writable.1 directory
    have directory' : (fs.put written (.file content)).node place = some .directory := by
      rw [node_put_of_ne fs _ not_here, directory]
    unfold advanceNew at done ⊢
    obtain ⟨_, _, done⟩ := bind_eq_ok.mp done
    obtain ⟨⟨next, named⟩, reached, done⟩ := bind_eq_ok.mp done
    rw [enter_of_directory directory', reached]
    dsimp only [bind, Except.bind] at done ⊢
    -- A last name may lead to the written place itself, where there was a file or nothing and now is a file.
    by_cases last : rest.all (·.isEmpty) = true
    · rw [if_pos last] at done ⊢
      by_cases same : next = written
      · subst same
        rw [node_put_self]
        cases found : fs.node next with
        | none => simpa only [found] using done
        | some node =>
          cases node with
          | file before => simpa only [found] using done
          | directory => exact absurd found writable.1
          | link target => exact absurd found (writable.2 target)
      · rw [node_put_of_ne fs _ same]
        exact done
    · rw [if_neg last] at done ⊢
      -- Any other name leads to a directory or a link, so not there.
      have not_next : next ≠ written := by
        rintro rfl
        split at done
        · contradiction
        · rename_i target found
          exact writable.2 target found
        · exact writable.1 (directory_of_advanceNew done)
      rw [node_put_of_ne fs _ not_next]
      split at done
      · contradiction
      · exact done
      · exact ih done

/-! ## Whole paths -/

/-- A way of following that succeeds where another one does, apart from some ends, leads to the same place. -/
theorem follow_of_advance {first second : Location → List String → Except IoFault Progress}
    {p : Location → Prop}
    (agree : ∀ place segments progress, first place segments = .ok progress →
      (∀ reached, progress = .arrived reached → p reached) → second place segments = .ok progress)
    {links : Nat} {place reached : Location} {segments : List String}
    (done : follow first links place segments = .ok reached) (ok : p reached) :
    follow second links place segments = .ok reached := by
  -- Stretches that end at a link agree as they are, and the last one since its end is among those allowed.
  induction links generalizing place segments with
  | zero =>
    unfold follow at done ⊢
    obtain ⟨progress, stretch, done⟩ := bind_eq_ok.mp done
    cases progress with
    | arrived there =>
      cases done
      rw [agree _ _ _ stretch (by rintro _ ⟨⟩; exact ok)]
      rfl
    | linked there target rest => contradiction
  | succ links ih =>
    unfold follow at done ⊢
    obtain ⟨progress, stretch, done⟩ := bind_eq_ok.mp done
    cases progress with
    | arrived there =>
      cases done
      rw [agree _ _ _ stretch (by rintro _ ⟨⟩; exact ok)]
      rfl
    | linked there target rest =>
      rw [agree _ _ _ stretch (by rintro _ ⟨⟩)]
      exact ih done

theorem segments_ne_nil (path : Path) : path.segments ≠ [] := by
  unfold Path.segments
  rw [Ne, List.map_eq_nil_iff]
  exact List.splitOnP_ne_nil _ _

/-- The last stretch of a way is never empty, since a link has a target. -/
theorem arrived_of_follow {advance : Location → List String → Except IoFault Progress} {links : Nat}
    {place reached : Location} {segments : List String} (some_way : segments ≠ [])
    (done : follow advance links place segments = .ok reached) :
    ∃ place segments, segments ≠ [] ∧ advance place segments = .ok (.arrived reached) := by
  induction links generalizing place segments with
  | zero =>
    unfold follow at done
    obtain ⟨progress, stretch, done⟩ := bind_eq_ok.mp done
    cases progress with
    | arrived there =>
      cases done
      exact ⟨place, segments, some_way, stretch⟩
    | linked there target rest => contradiction
  | succ links ih =>
    unfold follow at done
    obtain ⟨progress, stretch, done⟩ := bind_eq_ok.mp done
    cases progress with
    | arrived there =>
      cases done
      exact ⟨place, segments, some_way, stretch⟩
    | linked there target rest =>
      exact ih (List.append_ne_nil_of_left_ne_nil (segments_ne_nil target) rest) done

theorem writable_of_newPlace {fs : FileSystem} {path : Path} {place : Location}
    (asked : fs.newPlace path = .ok place) : fs.Writable place := by
  unfold newPlace at asked
  obtain ⟨_, _, followed⟩ := bind_eq_ok.mp asked
  obtain ⟨_, _, _, arrived⟩ := arrived_of_follow (segments_ne_nil path) followed
  exact writable_of_advanceNew arrived

/-- A path under which a file could be made leads to the file that is already there. -/
theorem locate_of_newPlace {fs : FileSystem} {path : Path} {place : Location}
    (asked : fs.newPlace path = .ok place) (present : (fs.node place).isSome) :
    fs.locate path = .ok place := by
  unfold newPlace at asked
  obtain ⟨_, spelled, followed⟩ := bind_eq_ok.mp asked
  have found := follow_of_advance (p := fun reached => (fs.node reached).isSome)
    (fun _ _ _ => advance_of_advanceNew) followed present
  rw [locate, spelled]
  exact found

/-- Writing a file leaves every path where it led, if that is elsewhere. -/
theorem locate_put {fs : FileSystem} {written place : Location} (writable : fs.Writable written)
    (node : FileNode) {path : Path} (located : fs.locate path = .ok place)
    (elsewhere : place ≠ written) : (fs.put written node).locate path = .ok place := by
  unfold locate at located
  obtain ⟨_, spelled, followed⟩ := bind_eq_ok.mp located
  have found := follow_of_advance (p := fun reached => reached ≠ written)
    (fun _ _ progress done ends => advance_put writable node done
      (fun same => ends written same rfl)) followed elsewhere
  rw [locate, spelled]
  exact found

theorem newPlace_put {fs : FileSystem} {written place : Location} (writable : fs.Writable written)
    (content : ByteArray) {path : Path} (asked : fs.newPlace path = .ok place) :
    (fs.put written (.file content)).newPlace path = .ok place := by
  unfold newPlace at asked
  obtain ⟨_, spelled, followed⟩ := bind_eq_ok.mp asked
  have found := follow_of_advance (p := fun _ => True)
    (fun _ _ _ done _ => advanceNew_put writable content done) followed trivial
  rw [newPlace, spelled]
  exact found

theorem locate_written {fs : FileSystem} {path : Path} {place : Location}
    (asked : fs.newPlace path = .ok place) (content : ByteArray) :
    (fs.put place (.file content)).locate path = .ok place := by
  apply locate_of_newPlace (newPlace_put (writable_of_newPlace asked) content asked)
  simp

theorem read_of_locate {fs : FileSystem} {path : Path} {place : Location}
    (located : fs.locate path = .ok place) : fs.read path = fs.content place := by
  simp [read, located, bind, Except.bind]

theorem read_written {fs : FileSystem} {path : Path} {place : Location}
    (asked : fs.newPlace path = .ok place) (content : ByteArray) :
    (fs.put place (.file content)).read path = .ok content := by
  rw [read_of_locate (locate_written asked content)]
  simp [FileSystem.content]

theorem content_put_of_ne {fs : FileSystem} {place other : Location} (node : FileNode)
    (elsewhere : other ≠ place) : (fs.put place node).content other = fs.content other := by
  simp only [content, node_put_of_ne fs node elsewhere]

theorem isSome_of_content {fs : FileSystem} {place : Location} {bytes : ByteArray}
    (present : fs.content place = .ok bytes) : (fs.node place).isSome := by
  cases found : fs.node place with
  | none => simp [content, found] at present
  | some node => rfl

/-! ## What paths lead to -/

/-- A file or a directory, but neither a link nor nothing. -/
def Present (fs : FileSystem) (place : Location) : Prop :=
  fs.node place = some .directory ∨ ∃ content, fs.node place = some (.file content)

theorem present_of_advance {fs : FileSystem} {place reached : Location} {segments : List String}
    (some_way : segments ≠ []) (done : fs.advance place segments = .ok (.arrived reached)) :
    fs.Present reached := by
  induction segments generalizing place with
  | nil => contradiction
  | cons segment rest ih =>
    obtain ⟨_, next, _, _, linked | past⟩ := advance_cons done
    · obtain ⟨_, _, impossible⟩ := linked
      cases impossible
    · obtain ⟨found, no_link, more⟩ := past
      cases rest with
      | cons other others => exact ih (List.cons_ne_nil _ _) more
      | nil =>
        cases more
        obtain ⟨node, here⟩ := Option.isSome_iff_exists.mp found
        cases node with
        | file content => exact .inr ⟨content, here⟩
        | directory => exact .inl here
        | link target => exact absurd here (no_link target)

theorem present_of_locate {fs : FileSystem} {path : Path} {place : Location}
    (located : fs.locate path = .ok place) : fs.Present place := by
  unfold locate at located
  obtain ⟨_, _, followed⟩ := bind_eq_ok.mp located
  obtain ⟨_, _, some_way, arrived⟩ := arrived_of_follow (segments_ne_nil path) followed
  exact present_of_advance some_way arrived

end PolicyDiagram.FileSystem
