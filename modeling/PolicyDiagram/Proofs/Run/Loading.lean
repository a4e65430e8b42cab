import PolicyDiagram.Proofs.Files.Follow
import PolicyDiagram.Proofs.Run.Stages

/-! Loading a list of fragments. The earliest path that loads no fragment decides: its error is that of the whole
list and of the run, and what stands behind it is not looked at. -/

namespace PolicyDiagram

/-- What a reader of a path meets with: a fault of opening it, a fault of reading what was opened, or bytes. -/
def FileSystem.opened (fs : FileSystem) (path : Path) : Except IoFault (Except IoFault ByteArray) :=
  (fs.locate path).map fs.content

namespace Document

/-- Why a path loads no fragment. -/
inductive Spoiled (fs : FileSystem) (path : Path) : RunError → Prop where
  | unopened {fault : IoFault} (closed : fs.locate path = .error fault) :
      Spoiled fs path (.unopened path fault)
  | directory {place : Location} (located : fs.locate path = .ok place)
      (found : fs.node place = some .directory) :
      Spoiled fs path (.undecoded path (.unreadable (.ofPath path) .isADirectory))
  | malformed {place : Location} {bytes : ByteArray} {error : DecodeError}
      (located : fs.locate path = .ok place) (found : fs.node place = some (.file bytes))
      (refused : decode (.ofPath path) bytes = .error error) :
      Spoiled fs path (.undecoded path error)

theorem load_eq (fs : FileSystem) (path : Path) :
    load fs path = match fs.opened path with
      | .error fault => .error (.unopened path fault)
      | .ok (.error fault) => .error (.undecoded path (.unreadable (.ofPath path) fault))
      | .ok (.ok bytes) => (decode (.ofPath path) bytes).mapError (.undecoded path) := by
  unfold load FileSystem.opened
  cases fs.locate path with
  | error fault => rfl
  | ok place =>
    dsimp only [Except.map, Except.mapError, bind, Except.bind]
    cases fs.content place <;> rfl

theorem load_eq_error {fs : FileSystem} {path : Path} {error : RunError} :
    load fs path = .error error ↔ Spoiled fs path error := by
  rw [load_eq, FileSystem.opened]
  -- From left to right the cases are where loading stops, from right to left why.
  constructor
  · intro failed
    cases located : fs.locate path with
    | error fault =>
      rw [located] at failed
      cases failed
      exact .unopened located
    | ok place =>
      rw [located] at failed
      dsimp only [Except.map] at failed
      rcases FileSystem.present_of_locate located with found | ⟨bytes, found⟩
      · rw [FileSystem.content, found] at failed
        cases failed
        exact .directory located found
      · rw [FileSystem.content, found] at failed
        dsimp only at failed
        cases refused : decode (.ofPath path) bytes with
        | ok fragment =>
          rw [refused] at failed
          contradiction
        | error problem =>
          rw [refused] at failed
          cases failed
          exact .malformed located found refused
  · rintro (closed | ⟨located, found⟩ | ⟨located, found, refused⟩)
    · rw [closed]
      rfl
    · rw [located]
      simp only [Except.map, FileSystem.content, found]
    · rw [located]
      simp only [Except.map, FileSystem.content, found, refused]
      rfl

theorem load_congr {fs other : FileSystem} {path : Path} (alike : other.opened path = fs.opened path) :
    load other path = load fs path := by
  rw [load_eq, load_eq, alike]

/-! ## The first failure -/

/-- A path that loads no fragment, behind others that do. -/
structure FirstBad (fs : FileSystem) (before : List Path) (path : Path) (error : RunError) : Prop where
  good : ∀ earlier ∈ before, ∃ fragment, load fs earlier = .ok fragment
  bad : load fs path = .error error

theorem loadAll_cons_of_error {fs : FileSystem} {path : Path} {error : RunError}
    (bad : load fs path = .error error) (rest : List Path) :
    loadAll fs (path :: rest) = .error error := by
  rw [loadAll, List.mapM_cons, bad]
  rfl

theorem loadAll_cons_of_ok {fs : FileSystem} {path : Path} {fragment : Document}
    (good : load fs path = .ok fragment) (rest : List Path) :
    loadAll fs (path :: rest) = (loadAll fs rest).map (fragment :: ·) := by
  rw [loadAll, List.mapM_cons, good, loadAll]
  cases rest.mapM (load fs) <;> rfl

theorem FirstBad.loadAll_eq {fs : FileSystem} {before : List Path} {path : Path} {error : RunError}
    (first : FirstBad fs before path error) (after : List Path) :
    loadAll fs (before ++ path :: after) = .error error := by
  obtain ⟨good, bad⟩ := first
  induction before with
  | nil => exact loadAll_cons_of_error bad after
  | cons earlier rest ih =>
    obtain ⟨fragment, loaded⟩ := good earlier List.mem_cons_self
    have behind := ih fun other listed => good other (List.mem_cons_of_mem earlier listed)
    rw [List.cons_append, loadAll_cons_of_ok loaded, behind]
    rfl

theorem exists_firstBad {fs : FileSystem} {paths : List Path} {error : RunError}
    (failed : loadAll fs paths = .error error) :
    ∃ before path after, paths = before ++ path :: after ∧ FirstBad fs before path error := by
  induction paths with
  | nil => contradiction
  | cons path rest ih =>
    cases first : load fs path with
    | error fault =>
      rw [loadAll_cons_of_error first] at failed
      cases failed
      exact ⟨[], path, rest, rfl, by simp, first⟩
    | ok fragment =>
      rw [loadAll_cons_of_ok first] at failed
      cases more : loadAll fs rest with
      | ok fragments =>
        rw [more] at failed
        contradiction
      | error fault =>
        rw [more] at failed
        cases failed
        obtain ⟨before, bad, after, rfl, good, found⟩ := ih more
        refine ⟨path :: before, bad, after, rfl, ?_, found⟩
        rintro earlier (_ | ⟨_, listed⟩)
        · exact ⟨fragment, first⟩
        · exact good earlier listed

theorem load_error_of_loadAll {fs : FileSystem} {paths : List Path} {error : RunError}
    (failed : loadAll fs paths = .error error) : ∃ path ∈ paths, load fs path = .error error := by
  obtain ⟨before, path, after, rfl, first⟩ := exists_firstBad failed
  exact ⟨path, by simp, first.bad⟩

theorem exists_loadAll {fs : FileSystem} {paths : List Path} :
    (∃ fragments, loadAll fs paths = .ok fragments) ↔
      ∀ path ∈ paths, ∃ fragment, load fs path = .ok fragment := by
  constructor
  · rintro ⟨fragments, loaded⟩ path listed
    exact load_of_loadAll loaded listed
  · intro good
    cases loaded : loadAll fs paths with
    | ok fragments => exact ⟨fragments, rfl⟩
    | error error =>
      obtain ⟨path, listed, bad⟩ := load_error_of_loadAll loaded
      obtain ⟨fragment, found⟩ := good path listed
      rw [bad] at found
      contradiction

theorem FirstBad.congr {fs other : FileSystem} {before : List Path} {path : Path} {error : RunError}
    (first : FirstBad fs before path error)
    (alike : ∀ shared ∈ before ++ [path], other.opened shared = fs.opened shared) :
    FirstBad other before path error := by
  constructor
  · intro earlier listed
    rw [load_congr (alike earlier (List.mem_append_left _ listed))]
    exact first.good earlier listed
  · rw [load_congr (alike path (by simp))]
    exact first.bad

/-- How the loading of a list of paths comes out. -/
structure Decided (fs : FileSystem) (paths : List Path) : Prop where
  succeeds : (∃ fragments, loadAll fs paths = .ok fragments) ↔
    ∀ path ∈ paths, ∃ fragment, load fs path = .ok fragment
  inOrder : ∀ fragments, loadAll fs paths = .ok fragments ↔
    List.Forall₂ (fun path fragment => load fs path = .ok fragment) paths fragments
  fails : ∀ error, loadAll fs paths = .error error ↔
    ∃ before path after, paths = before ++ path :: after ∧ FirstBad fs before path error
  reason : ∀ path error, load fs path = .error error ↔ Spoiled fs path error
  behind : ∀ before path after error, paths = before ++ path :: after → FirstBad fs before path error →
    ∀ (other : FileSystem) (rest : List Path),
      (∀ shared ∈ before ++ [path], other.opened shared = fs.opened shared) →
        loadAll other (before ++ path :: rest) = .error error
  run : ∀ (config : Config) error, config.files = paths → loadAll fs paths = .error error →
    Run.text fs config = .error error

theorem first_bad_path_decides (fs : FileSystem) (paths : List Path) : Decided fs paths := by
  constructor
  case succeeds => exact exists_loadAll
  case inOrder =>
    intro fragments
    exact loadAll_eq_ok
  case fails =>
    intro error
    constructor
    · exact exists_firstBad
    · rintro ⟨before, path, after, rfl, first⟩
      exact first.loadAll_eq after
  case reason =>
    intro path error
    exact load_eq_error
  case behind =>
    rintro before path after error rfl first other rest alike
    exact (first.congr alike).loadAll_eq rest
  case run =>
    rintro config error rfl failed
    rw [Run.text_eq, Run.prepare_eq, failed]
    rfl

/-- A fragment, a directory that is named like one, and a file that is no JSON. -/
def drawer : FileSystem where
  node := fun
    | [] | ["drawer"] | ["types.JSON", "drawer"] => some .directory
    | ["unions.yaml", "drawer"] => some (.file "unions: []".toUTF8)
    | ["broken.json", "drawer"] => some (.file "[".toUTF8)
    | _ => none
  workingDirectory := ["drawer"]

theorem drawer_fails_at_directory :
    Run.text drawer
        ⟨[⟨"unions.yaml"⟩, ⟨"./types.JSON"⟩, ⟨"missing.yaml"⟩, ⟨"broken.json"⟩], .raw, none⟩ =
      .error (.undecoded ⟨"./types.JSON"⟩ (.json (.unreadable .isADirectory))) := by
  have first : FirstBad drawer [⟨"unions.yaml"⟩] ⟨"./types.JSON"⟩
      (.undecoded ⟨"./types.JSON"⟩ (.json (.unreadable .isADirectory))) := by
    constructor
    · intro earlier listed
      cases List.mem_singleton.mp listed
      exact ⟨∅, by decide +kernel⟩
    · decide +kernel
  have decides := first_bad_path_decides drawer
    [⟨"unions.yaml"⟩, ⟨"./types.JSON"⟩, ⟨"missing.yaml"⟩, ⟨"broken.json"⟩]
  have failed := (decides.fails _).mpr ⟨_, _, _, rfl, first⟩
  exact decides.run _ _ rfl failed

end Document

end PolicyDiagram
