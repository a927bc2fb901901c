import Mathlib.Data.List.Infix
import RecordSheet.Proofs.Files.Tree

namespace RecordSheet.Tree

variable {t u after : Tree} {path content name bytes : Bytes} {names : List Bytes}
  {location directory p q : Location}

/-- The location that a path names, whether or not there is a way to it. -/
def place (t : Tree) (path : Bytes) : Location :=
  (Path.names path).foldl child (t.origin path)

/-- A path is one to a location, or to something below it: a leading part of it names the location. -/
def AtOrBelow (t : Tree) (path : Bytes) (p : Location) : Prop :=
  ∃ leading, leading <+: Path.names path ∧ leading.foldl child (t.origin path) = p

instance (t : Tree) (path : Bytes) (p : Location) : Decidable (t.AtOrBelow path p) :=
  decidable_of_iff
    (∃ leading ∈ (Path.names path).inits, leading.foldl child (t.origin path) = p) <| by
      simp only [List.mem_inits, AtOrBelow]

theorem atOrBelow_place (t : Tree) (path : Bytes) : t.AtOrBelow path (t.place path) :=
  ⟨Path.names path, List.prefix_rfl, rfl⟩

theorem eq_child_of_enter (h : t.enter p name = .ok q) : q = child p name := by
  unfold enter at h
  split at h
  · cases h
  · split at h
    · cases h
      rfl
    · split at h
      · cases h
      · split at h
        · cases h
          rfl
        · cases h

theorem eq_foldl_of_foldlM (h : names.foldlM t.enter p = .ok q) : q = names.foldl child p := by
  induction names generalizing p with
  | nil =>
    cases h
    rfl
  | cons name names ih =>
    obtain ⟨p', hp', h⟩ := exists_of_bind_eq_ok h
    rw [List.foldl_cons, ← eq_child_of_enter hp']
    exact ih h

theorem enter_congr (hp : u.isDirectory p = t.isDirectory p)
    (hchild : (u.entryAt? (child p name)).isSome = (t.entryAt? (child p name)).isSome) :
    u.enter p name = t.enter p name := by
  unfold enter
  rw [hp, hchild]

theorem foldlM_enter_congr
    (h : ∀ leading, leading <+: names →
      u.entryAt? (leading.foldl child p) = t.entryAt? (leading.foldl child p)) :
    names.foldlM u.enter p = names.foldlM t.enter p := by
  induction names generalizing p with
  | nil => rfl
  | cons name names ih =>
    have hp : u.entryAt? p = t.entryAt? p := h [] List.nil_prefix
    have hchild : u.entryAt? (child p name) = t.entryAt? (child p name) := h [name] (by simp)
    have henter : u.enter p name = t.enter p name :=
      enter_congr (by rw [isDirectory, isDirectory, hp]) (by rw [hchild])
    rw [List.foldlM_cons, List.foldlM_cons, henter]
    cases hq : t.enter p name with
    | error e => rfl
    | ok q =>
      obtain rfl := eq_child_of_enter hq
      apply ih
      intro leading hleading
      exact h (name :: leading) (by simpa using hleading)

theorem find_eq_ok_iff : t.find path = .ok p ↔ checkPath path = .ok () ∧
    (Path.names path).foldlM t.enter (t.origin path) = .ok p ∧
      (Path.endsInSlash path = true → t.isDirectory p = true) := by
  simp only [find, bind_eq_ok_iff]
  constructor
  · rintro ⟨_, hchecked, q, hq, h⟩
    split at h
    · cases h
    · rename_i hslash
      cases h
      exact ⟨hchecked, hq, by simpa using hslash⟩
  · rintro ⟨hchecked, hp, hslash⟩
    exact ⟨_, hchecked, p, hp, if_neg (by simpa using hslash)⟩

theorem eq_place_of_find (h : t.find path = .ok p) : p = t.place path :=
  eq_foldl_of_foldlM (find_eq_ok_iff.1 h).2.1

theorem read_eq_ok_iff : t.read path = .ok bytes ↔
    ∃ location, t.find path = .ok location ∧ t.entryAt? location = some (.file bytes) := by
  rw [Tree.read, bind_eq_ok_iff]
  refine exists_congr fun l => and_congr_right fun _ => ?_
  constructor
  · intro h
    split at h
    · rename_i content hentry
      cases h
      exact hentry
    · cases h
  · intro hentry
    rw [hentry]

theorem exists_read_of_isFile (h : t.isFile path = true) : ∃ bytes, t.read path = .ok bytes := by
  rw [isFile] at h
  cases hread : t.read path with
  | ok bytes => exact ⟨bytes, rfl⟩
  | error e =>
    rw [hread] at h
    cases h

/-- Two trees have the same at all locations that a path leads through. -/
structure Agrees (t u : Tree) (path : Bytes) : Prop where
  working : u.working = t.working
  entryAt? : ∀ p, t.AtOrBelow path p → u.entryAt? p = t.entryAt? p

namespace Agrees

variable (h : t.Agrees u path)
include h

theorem origin : u.origin path = t.origin path := by
  rw [Tree.origin, Tree.origin, h.working]

theorem foldlM_enter (hnames : names <+: Path.names path) :
    names.foldlM u.enter (u.origin path) = names.foldlM t.enter (t.origin path) := by
  rw [h.origin]
  apply foldlM_enter_congr
  intro leading hleading
  exact h.entryAt? _ ⟨leading, hleading.trans hnames, rfl⟩

theorem isDirectory (hp : t.AtOrBelow path p) : u.isDirectory p = t.isDirectory p := by
  rw [Tree.isDirectory, Tree.isDirectory, h.entryAt? p hp]

theorem find : u.find path = t.find path := by
  rw [Tree.find, Tree.find, h.foldlM_enter List.prefix_rfl]
  cases hp : (Path.names path).foldlM t.enter (t.origin path) with
  | error e => rfl
  | ok p =>
    have hplace : t.AtOrBelow path p := eq_foldl_of_foldlM hp ▸ atOrBelow_place t path
    simp only [bind, Except.bind, h.isDirectory hplace]

theorem read : u.read path = t.read path := by
  rw [Tree.read, Tree.read, h.find]
  cases hp : t.find path with
  | error e => rfl
  | ok p =>
    have hplace : t.AtOrBelow path p := eq_place_of_find hp ▸ atOrBelow_place t path
    simp only [bind, Except.bind, h.entryAt? p hplace]

theorem target : u.target path = t.target path := by
  rw [Tree.target, Tree.target]
  simp only [h.foldlM_enter (List.dropLast_prefix _)]
  cases hp : (Path.names path).dropLast.foldlM t.enter (t.origin path) with
  | error e => rfl
  | ok p =>
    cases hlast : (Path.names path).getLast? with
    | none => rfl
    | some name =>
      have hleading := eq_foldl_of_foldlM hp
      have hdirectory : u.isDirectory p = t.isDirectory p :=
        h.isDirectory ⟨_, List.dropLast_prefix _, hleading.symm⟩
      simp only [bind, Except.bind, hdirectory]
      by_cases hname : (isDots name || Path.endsInSlash path) = true
      · simp only [hname, ↓reduceIte]
      · have hdots : isDots name = false := by
          rw [Bool.or_eq_true, not_or, Bool.not_eq_true] at hname
          exact hname.1
        have hplace : t.AtOrBelow path (p ++ [name]) := by
          obtain ⟨names, hnames⟩ := List.getLast?_eq_some_iff.1 hlast
          rw [hnames, List.dropLast_concat] at hleading
          refine ⟨Path.names path, List.prefix_rfl, ?_⟩
          rw [hnames, List.foldl_append, ← hleading]
          exact child_of_not_dots hdots
        simp only [h.isDirectory hplace]

end Agrees

theorem Reaches.place_eq (h : t.Reaches path directory name) :
    t.place path = directory ++ [name] := by
  rw [place, h.names_eq, List.foldl_append, ← eq_foldl_of_foldlM h.entered]
  exact child_of_not_dots h.notDots

theorem place_of_target (h : t.target path = .ok location) : t.place path = location := by
  obtain ⟨directory, name, rfl, hreaches⟩ := exists_reaches h
  exact hreaches.place_eq

theorem eq_of_foldlM_enter (hp : t.isDirectory p = false) (h : names.foldlM t.enter p = .ok q) :
    q = p := by
  cases names with
  | nil =>
    cases h
    rfl
  | cons name names =>
    rw [List.foldlM_cons, enter, hp] at h
    cases h

section

variable (h : t.Puts location content after) (hfile : t.isDirectory location = false)
include h

theorem Puts.place_eq (path : Bytes) : after.place path = t.place path := by
  rw [place, place, h.origin]

include hfile

/-- A path that does not come to a location does not notice what is put there. -/
theorem Puts.agrees (hpath : ¬t.AtOrBelow path location) : t.Agrees after path where
  working := h.working
  entryAt? p hp := by
    rw [h.entryAt?_eq hfile, if_neg]
    rintro rfl
    exact hpath hp

/-- A file opens no new way but the one to it. -/
theorem Puts.foldlM_enter_eq_ok_iff (hq : q ≠ location) :
    names.foldlM after.enter p = .ok q ↔ names.foldlM t.enter p = .ok q := by
  refine ⟨fun hnames => ?_, h.foldlM_enter hfile⟩
  induction names generalizing p with
  | nil => exact hnames
  | cons name names ih =>
    obtain ⟨p', hp', hnames⟩ := exists_of_bind_eq_ok hnames
    have hne : p' ≠ location := by
      rintro rfl
      exact hq (eq_of_foldlM_enter ((h.isDirectory_eq hfile p').trans hfile) hnames)
    have henter : after.enter p name = t.enter p name := by
      apply enter_congr (h.isDirectory_eq hfile p)
      rw [← eq_child_of_enter hp', h.entryAt?_eq hfile, if_neg hne]
    rw [List.foldlM_cons, ← henter, hp']
    exact ih hnames

theorem Puts.find_eq_ok_iff (hq : q ≠ location) :
    after.find path = .ok q ↔ t.find path = .ok q := by
  rw [Tree.find_eq_ok_iff, Tree.find_eq_ok_iff, h.origin, h.foldlM_enter_eq_ok_iff hfile hq,
    h.isDirectory_eq hfile]

/-- Whatever else has been read before is still read after a file has been put into the tree. -/
theorem Puts.read_eq_ok_iff (hplace : t.place path ≠ location) :
    after.read path = .ok bytes ↔ t.read path = .ok bytes := by
  rw [Tree.read_eq_ok_iff, Tree.read_eq_ok_iff]
  refine exists_congr fun q => ?_
  by_cases hq : q = location
  · subst hq
    refine iff_of_false (fun hread => ?_) fun hread => ?_
    · exact hplace ((h.place_eq path).symm.trans (eq_place_of_find hread.1).symm)
    · exact hplace (eq_place_of_find hread.1).symm
  · rw [h.find_eq_ok_iff hfile hq, h.entryAt?_eq hfile, if_neg hq]

theorem Puts.isFile_eq (hplace : t.place path ≠ location) : after.isFile path = t.isFile path := by
  have hread : ∀ bytes, after.read path = .ok bytes ↔ t.read path = .ok bytes := fun _ =>
    h.read_eq_ok_iff hfile hplace
  rw [isFile, isFile]
  cases ht : t.read path with
  | ok bytes => rw [(hread bytes).2 ht]
  | error e =>
    cases hafter : after.read path with
    | ok bytes => rw [(hread bytes).1 hafter] at ht; cases ht
    | error e => rfl

end

theorem Reaches.target (h : t.Reaches path directory name)
    (hputs : t.Puts (directory ++ [name]) content after) :
    after.target path = .ok (directory ++ [name]) := by
  have hentered := hputs.foldlM_enter h.notDirectory h.entered
  rw [Tree.target, h.checked]
  simp only [bind, Except.bind, hputs.origin, hentered, h.last, h.notDirectory,
    hputs.isDirectory_eq h.notDirectory, h.inDirectory, h.notDots, h.noSlash, Bool.not_true,
    Bool.or_self, Bool.false_eq_true, ↓reduceIte, if_neg (Nat.not_lt.2 h.length)]

section

variable (hfile : t.entryAt? location = some (.file bytes))
include hfile

theorem isDirectory_of_file : t.isDirectory location = false := by
  rw [isDirectory, hfile]
  rfl

variable (h : t.Puts location content after)
include h

theorem Puts.enter_eq : after.enter = t.enter := by
  have hdirectory := isDirectory_of_file hfile
  funext p name
  apply enter_congr (h.isDirectory_eq hdirectory p)
  rw [h.entryAt?_eq hdirectory]
  split
  · rename_i hp
    rw [hp, hfile]
    rfl
  · rfl

theorem Puts.find_eq (path : Bytes) : after.find path = t.find path := by
  simp only [Tree.find, h.enter_eq hfile, h.origin, h.isDirectory_eq (isDirectory_of_file hfile)]

theorem Puts.target_eq (path : Bytes) : after.target path = t.target path := by
  simp only [Tree.target, h.enter_eq hfile, h.origin, h.isDirectory_eq (isDirectory_of_file hfile)]

theorem Puts.read_same (hpath : t.find path = .ok location) : after.read path = .ok content := by
  rw [Tree.read_eq_ok_iff, h.find_eq hfile]
  refine ⟨location, hpath, ?_⟩
  rw [h.entryAt?_eq (isDirectory_of_file hfile), if_pos rfl]

theorem Puts.read_other (hpath : t.find path ≠ .ok location) : after.read path = t.read path := by
  rw [Tree.read, Tree.read, h.find_eq hfile]
  cases hp : t.find path with
  | error e => rfl
  | ok p =>
    have hne : p ≠ location := by
      rintro rfl
      exact hpath hp
    simp only [bind, Except.bind, h.entryAt?_eq (isDirectory_of_file hfile), if_neg hne]

end

structure Change where
  location : Location
  content : Bytes
  deriving DecidableEq, Repr

def apply (t : Tree) : Option Change → Tree
  | none => t
  | some change => t.insert change.location (.file change.content)

theorem working_apply (t : Tree) (change : Option Change) : (t.apply change).working = t.working := by
  cases change with
  | none => rfl
  | some change => rfl

theorem ext_entries (hworking : u.working = t.working)
    (h : ∀ l : Location, u.entries[l]? = t.entries[l]?) : u = t := by
  cases t
  cases u
  cases hworking
  exact congrArg (Tree.mk · _) (Std.ExtTreeMap.ext_getElem? fun {l} => h l)

theorem apply_apply (t : Tree) (change : Option Change) :
    (t.apply change).apply change = t.apply change := by
  cases change with
  | none => rfl
  | some change =>
    refine ext_entries rfl fun location => ?_
    rw [apply, puts_insert.entries location]
    split
    · rename_i hlocation
      rw [hlocation, apply, puts_insert.entries, if_pos rfl]
    · rfl

/-- Changes at two locations can be made in either order. -/
theorem apply_comm (t : Tree) {change other : Option Change}
    (h : ∀ c ∈ change, ∀ d ∈ other, c.location ≠ d.location) :
    (t.apply change).apply other = (t.apply other).apply change := by
  cases change with
  | none => rfl
  | some c =>
    cases other with
    | none => rfl
    | some d =>
      have hne : c.location ≠ d.location := h c rfl d rfl
      refine ext_entries rfl fun location => ?_
      simp only [apply, puts_insert.entries location]
      split
      · rename_i hd
        rw [if_neg (hd ▸ hne.symm)]
      · rfl

end RecordSheet.Tree
