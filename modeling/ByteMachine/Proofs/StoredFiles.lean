import ByteMachine.Command.Directory
import ByteMachine.Proofs.Result

/-!
# Files found again

A file that was written to a path is found at this path afterwards.  The way
to it leads through directories only, and putting a file anywhere but at a
directory removes none of them: the file that is replaced may have been what a
directory is there for, but then the new one takes over, because it stands at
the same place.  Nor does a new file bring any directory with it, because the
way to its place went through all of those above it.
-/

namespace ByteMachine
namespace Directory

variable {directory : Directory} {place : Place}

/-! ## Looking at a place -/

theorem entry?_eq_directory_iff :
    directory.entry? place = some .directory ↔
      Device.atPlace? place = none ∧ directory.content? place = none ∧
        directory.hasDirectory place = true := by
  unfold entry?
  split
  · simp [*]
  · simp [*]
  · simp [*]

/-- A place that is neither a directory nor a device is free for a file. -/
theorem entry?_put_self
    (hdevice : ∀ device, directory.entry? place ≠ some (.device device))
    (bytes : List UInt8) :
    entry? (directory.put place bytes) place = some (.file bytes) := by
  have hnone : Device.atPlace? place = none := by
    cases hfound : Device.atPlace? place with
    | none => rfl
    | some device =>
        have hentry : directory.entry? place = some (.device device) := by
          simp [Directory.entry?, hfound]
        exact absurd hentry (hdevice device)
  simp [Directory.entry?, hnone]

theorem hasDirectory_put
    {other : Place} (h : directory.hasDirectory other = true)
    (bytes : List UInt8) :
    (directory.put place bytes).hasDirectory other = true := by
  rw [hasDirectory, Bool.or_eq_true] at h ⊢
  refine h.imp_right ?_
  intro hbelow
  obtain ⟨file, hfile, hunder⟩ := List.any_eq_true.mp hbelow
  apply List.any_eq_true.mpr
  by_cases hsame : file.1 = place
  · -- The file that is replaced lies below the directory, and so does the new
    -- one.
    refine ⟨(place, bytes), List.mem_cons_self, ?_⟩
    rw [← hsame]
    exact hunder
  · refine ⟨file, List.mem_cons_of_mem _ ?_, hunder⟩
    exact List.mem_filter.mpr ⟨hfile, decide_eq_true hsame⟩

/-! ## Following a path -/

theorem lookUp_eq_ok_iff {name : String} {found : Option Entry} :
    directory.lookUp place name = .ok found ↔
      name.utf8ByteSize ≤ Path.maxNameBytes ∧
        directory.entry? (place.follow name) = found := by
  rw [lookUp]
  by_cases hlong : Path.maxNameBytes < name.utf8ByteSize
  · simp [hlong, Nat.not_le.mpr hlong]
  · simp [hlong, Nat.not_lt.mp hlong]

theorem enter_eq_ok_iff {name : String} {next : Place} :
    directory.enter place name = .ok next ↔
      directory.lookUp place name = .ok (some .directory) ∧
        place.follow name = next := by
  rw [enter]
  cases directory.lookUp place name with
  | error error => simp
  | ok found =>
      match found with
      | none => simp
      | some .directory => simp
      | some (.file _) => simp
      | some (.device _) => simp

section Put

variable (hplace : directory.entry? place ≠ some .directory)
  (bytes : List UInt8)
include hplace

theorem entry?_put_directory
    {other : Place} (h : directory.entry? other = some .directory) :
    entry? (directory.put place bytes) other = some .directory := by
  have hne : other ≠ place := by
    rintro rfl
    exact hplace h
  rw [entry?_eq_directory_iff] at h ⊢
  obtain ⟨hdevice, hcontent, hdirectory⟩ := h
  refine ⟨hdevice, ?_, hasDirectory_put hdirectory bytes⟩
  rw [content?_put_of_ne directory bytes hne]
  exact hcontent

theorem enter_put
    {start next : Place} {name : String}
    (h : directory.enter start name = .ok next) :
    (directory.put place bytes).enter start name = .ok next := by
  rw [enter_eq_ok_iff, lookUp_eq_ok_iff] at h ⊢
  obtain ⟨⟨hsize, hentry⟩, hnext⟩ := h
  exact ⟨⟨hsize, entry?_put_directory hplace bytes hentry⟩, hnext⟩

theorem foldlM_enter_put
    {names : List String} {start last : Place}
    (h : names.foldlM directory.enter start = .ok last) :
    names.foldlM (directory.put place bytes).enter start = .ok last := by
  induction names generalizing start with
  | nil => exact h
  | cons name names ih =>
      rw [List.foldlM_cons, Result.bind_eq_ok_iff] at h ⊢
      obtain ⟨next, hnext, hrest⟩ := h
      exact ⟨next, enter_put hplace bytes hnext, ih hrest⟩

theorem approach_put
    {path : String} {reached : Place × Option String}
    (h : directory.approach path = .ok reached) :
    (directory.put place bytes).approach path = .ok reached := by
  rw [approach] at h ⊢
  split at h
  · cases h
  · split at h
    · cases h
    · obtain ⟨last, hlast, hreached⟩ := Result.bind_eq_ok_iff.mp h
      rw [if_neg ‹_›, if_neg ‹_›]
      exact Result.bind_eq_ok_iff.mpr
        ⟨last, foldlM_enter_put hplace bytes hlast, hreached⟩

end Put

/-- What it takes for bytes to become a file: the path leads to a directory and
from there, by a last name, to a file or to nothing yet. -/
theorem exists_of_destination
    {path : String} (h : directory.destination path = .ok (.file place)) :
    Path.endsInSlash path = false ∧
    ∃ start name found, directory.approach path = .ok (start, some name) ∧
      directory.lookUp start name = .ok found ∧
      found ≠ some .directory ∧ (∀ device, found ≠ some (.device device)) ∧
      start.follow name = place := by
  rw [destination, Result.bind_eq_ok_iff] at h
  obtain ⟨⟨start, last⟩, happroach, hlast⟩ := h
  cases last with
  | none => cases hlast
  | some name =>
      simp only at hlast
      split at hlast
      · cases hlast
      · rename_i hproper
        obtain ⟨found, hfound, hplace⟩ := Result.bind_eq_ok_iff.mp hlast
        refine ⟨?_, start, name, found, happroach, hfound, ?_⟩
        · exact Bool.eq_false_iff.mpr fun hslash =>
            hproper (.inr (.inr hslash))
        · match found with
          | none => simpa using hplace
          | some (.file _) => simpa using hplace

/-- A file is read with the bytes that were written. -/
theorem read_put
    {path : String} (h : directory.destination path = .ok (.file place))
    (bytes : List UInt8) :
    (directory.put place bytes).read path = .ok bytes := by
  obtain ⟨hslash, start, name, found, happroach, hfound, hnew, hkept, rfl⟩ :=
    exists_of_destination h
  obtain ⟨hsize, rfl⟩ := lookUp_eq_ok_iff.mp hfound
  have hreach := approach_put hnew bytes happroach
  have hthere := lookUp_eq_ok_iff.mpr ⟨hsize, entry?_put_self hkept bytes⟩
  simp [read, hreach, hthere, hslash]

/-! ## Everything else -/

/-- Every place on the way to this one is a directory, and so is this one. -/
def Walked (directory : Directory) (place : Place) : Prop :=
  ∀ front, front <+: place → directory.hasDirectory front = true

theorem walked_start (path : String) : directory.Walked (Place.start path) := by
  have hstandard : ∀ front : Place, front.isStandard = true →
      directory.hasDirectory front = true := by
    intro front hfront
    rw [hasDirectory, hfront, Bool.true_or]
  intro front hfront
  apply hstandard
  rw [Place.start] at hfront
  split at hfront
  · rcases List.prefix_cons_iff.mp hfront with rfl | ⟨rest, rfl, hrest⟩
    · rfl
    · rw [List.prefix_nil.mp hrest]
      rfl
  · rw [List.prefix_nil.mp hfront]
    rfl

/-- A name leads one step down, or to a place that lies on the way already. -/
theorem eq_or_prefix_of_prefix_follow
    {front : Place} {name : String} (h : front <+: place.follow name) :
    front = place.follow name ∨ front <+: place := by
  revert h
  unfold Place.follow Place.parent
  split
  · exact .inr
  split
  · split
    · exact .inr
    split
    · exact List.prefix_concat_iff.mp
    · exact fun h => .inr (h.trans (List.dropLast_prefix place))
  · exact List.prefix_concat_iff.mp

theorem Walked.enter
    {next : Place} {name : String} (hplace : directory.Walked place)
    (h : directory.enter place name = .ok next) : directory.Walked next := by
  obtain ⟨hfound, rfl⟩ := enter_eq_ok_iff.mp h
  obtain ⟨-, hentry⟩ := lookUp_eq_ok_iff.mp hfound
  intro front hfront
  rcases eq_or_prefix_of_prefix_follow hfront with rfl | hbefore
  · exact (entry?_eq_directory_iff.mp hentry).2.2
  · exact hplace front hbefore

theorem Walked.foldlM_enter
    {names : List String} {last : Place} (hplace : directory.Walked place)
    (h : names.foldlM directory.enter place = .ok last) :
    directory.Walked last := by
  induction names generalizing place with
  | nil =>
      obtain rfl := Except.ok.inj h
      exact hplace
  | cons name names ih =>
      rw [List.foldlM_cons, Result.bind_eq_ok_iff] at h
      obtain ⟨next, hnext, hrest⟩ := h
      exact ih (hplace.enter hnext) hrest

theorem walked_of_approach
    {path : String} {last : Option String}
    (h : directory.approach path = .ok (place, last)) :
    directory.Walked place := by
  rw [approach] at h
  split at h
  · cases h
  · split at h
    · cases h
    · obtain ⟨reached, hreached, hlast⟩ := Result.bind_eq_ok_iff.mp h
      obtain ⟨rfl, -⟩ := Prod.mk.inj (Except.ok.inj hlast)
      exact (walked_start path).foldlM_enter hreached

/-- Above the place that bytes go to there are directories only. -/
theorem hasDirectory_of_destination
    {path : String} (h : directory.destination path = .ok (.file place))
    {front : Place} (hfront : front <+: place) (hne : front ≠ place) :
    directory.hasDirectory front = true := by
  obtain ⟨-, start, name, found, happroach, -, -, -, rfl⟩ :=
    exists_of_destination h
  rcases eq_or_prefix_of_prefix_follow hfront with hsame | hbefore
  · exact absurd hsame hne
  · exact walked_of_approach happroach front hbefore

/-- Writing to a path changes nothing at any other place. -/
theorem entry?_put_of_destination
    {path : String} (h : directory.destination path = .ok (.file place))
    (bytes : List UInt8) {other : Place} (hne : other ≠ place) :
    entry? (directory.put place bytes) other = directory.entry? other := by
  have hdirectory : (directory.put place bytes).hasDirectory other =
      directory.hasDirectory other := by
    rw [Bool.eq_iff_iff]
    refine ⟨?_, fun hthere => hasDirectory_put hthere bytes⟩
    intro hthere
    rw [hasDirectory, Bool.or_eq_true] at hthere
    rcases hthere with hstandard | hbelow
    · rw [hasDirectory, hstandard, Bool.true_or]
    · obtain ⟨file, hfile, hunder⟩ := List.any_eq_true.mp hbelow
      rcases List.mem_cons.mp hfile with rfl | hkept
      · have hprefix := List.isPrefixOf_iff_prefix.mp
          (Bool.and_eq_true_iff.mp hunder).2
        exact hasDirectory_of_destination h hprefix hne
      · rw [hasDirectory, Bool.or_eq_true]
        exact .inr (List.any_eq_true.mpr
          ⟨file, (List.mem_filter.mp hkept).1, hunder⟩)
  simp only [Directory.entry?, content?_put_of_ne directory bytes hne,
    hdirectory]

/-- The file that is written to a path stands at its place. -/
theorem entry?_put_destination
    {path : String} (h : directory.destination path = .ok (.file place))
    (bytes : List UInt8) :
    entry? (directory.put place bytes) place = some (.file bytes) := by
  obtain ⟨-, start, name, found, -, hfound, -, hkept, rfl⟩ :=
    exists_of_destination h
  obtain ⟨-, rfl⟩ := lookUp_eq_ok_iff.mp hfound
  exact entry?_put_self hkept bytes

end Directory
end ByteMachine
