import RecordSheet.Files.Tree
import RecordSheet.Proofs.Except

namespace RecordSheet.Tree

variable {t after : Tree} {path content name : Bytes} {names : List Bytes}
  {location directory p q : Location}

theorem child_of_not_dots (h : isDots name = false) : child directory name = directory ++ [name] := by
  rw [isDots, Bool.or_eq_false_iff] at h
  rw [child, if_neg (ne_of_beq_false h.1), if_neg (ne_of_beq_false h.2)]

/-- A path along which a file can be written: all of it but its last name leads to a directory. -/
structure Reaches (t : Tree) (path : Bytes) (directory : Location) (name : Bytes) : Prop where
  checked : checkPath path = .ok ()
  last : (Path.names path).getLast? = some name
  entered : (Path.names path).dropLast.foldlM t.enter (t.origin path) = .ok directory
  inDirectory : t.isDirectory directory = true
  notDots : isDots name = false
  noSlash : Path.endsInSlash path = false
  length : name.length ≤ nameLimit
  notDirectory : t.isDirectory (directory ++ [name]) = false

theorem exists_reaches (h : t.target path = .ok location) :
    ∃ directory name, location = directory ++ [name] ∧ t.Reaches path directory name := by
  obtain ⟨_, hchecked, h⟩ := exists_of_bind_eq_ok h
  obtain ⟨directory, hentered, h⟩ := exists_of_bind_eq_ok h
  split at h
  · cases h
  · rename_i name hlast
    split at h
    · cases h
    · rename_i hin
      split at h
      · cases h
      · rename_i hname
        split at h
        · cases h
        · rename_i hlength
          split at h
          · cases h
          · rename_i hfile
            cases h
            rw [Bool.or_eq_true, not_or, Bool.not_eq_true, Bool.not_eq_true] at hname
            rw [Bool.not_eq_true', Bool.not_eq_false] at hin
            exact ⟨directory, name, rfl, hchecked, hlast, hentered, hin, hname.1, hname.2,
              Nat.le_of_not_lt hlength, Bool.not_eq_true _ ▸ hfile⟩

/-- One tree has come from another one by a file being put at a location. -/
structure Puts (t : Tree) (location : Location) (content : Bytes) (after : Tree) : Prop where
  working : after.working = t.working
  entries : ∀ l, after.entries[l]? = if l = location then some (.file content) else t.entries[l]?

theorem puts_insert : t.Puts location content (t.insert location (.file content)) where
  working := rfl
  entries l := by
    rw [insert, Std.ExtTreeMap.getElem?_insert]
    by_cases h : l = location
    · rw [if_pos h, if_pos (Std.compare_eq_iff_eq.2 h.symm)]
    · rw [if_neg h, if_neg fun heq => h (Std.compare_eq_iff_eq.1 heq).symm]

theorem not_prefix_working (h : t.isDirectory location = false) :
    ¬location <+: t.working := by
  intro hprefix
  rw [isDirectory, entryAt?, if_pos hprefix] at h
  cases h

section

variable (h : t.Puts location content after) (hfile : t.isDirectory location = false)
include h

theorem Puts.origin (path : Bytes) : after.origin path = t.origin path := by
  rw [Tree.origin, Tree.origin, h.working]

include hfile

theorem Puts.entryAt?_eq (p : Location) :
    after.entryAt? p = if p = location then some (.file content) else t.entryAt? p := by
  rw [entryAt?, entryAt?, h.working, h.entries]
  by_cases hp : p = location
  · rw [if_pos hp, if_pos hp, if_neg (hp ▸ not_prefix_working hfile)]
  · rw [if_neg hp, if_neg hp]

theorem Puts.isSome_entryAt? (hp : (t.entryAt? p).isSome) : (after.entryAt? p).isSome := by
  rw [h.entryAt?_eq hfile]
  split
  · rfl
  · exact hp

theorem Puts.isDirectory_eq (p : Location) : after.isDirectory p = t.isDirectory p := by
  rw [Tree.isDirectory, h.entryAt?_eq hfile]
  split
  · rename_i hp
    rw [hp, hfile]
    rfl
  · rfl

/-- A file put where no directory stands leaves every way through the tree open. -/
theorem Puts.enter (henter : t.enter p name = .ok q) : after.enter p name = .ok q := by
  unfold Tree.enter at henter ⊢
  rw [h.isDirectory_eq hfile]
  split at henter
  · cases henter
  · rename_i hp
    rw [if_neg hp]
    split at henter
    · rename_i hdots
      rw [if_pos hdots]
      exact henter
    · rename_i hdots
      rw [if_neg hdots]
      split at henter
      · cases henter
      · rename_i hlength
        rw [if_neg hlength]
        split at henter
        · rename_i hsome
          rw [if_pos (h.isSome_entryAt? hfile hsome)]
          exact henter
        · cases henter

theorem Puts.foldlM_enter (hnames : names.foldlM t.enter p = .ok q) :
    names.foldlM after.enter p = .ok q := by
  induction names generalizing p with
  | nil => exact hnames
  | cons name names ih =>
    obtain ⟨p', hp', hnames⟩ := exists_of_bind_eq_ok hnames
    rw [List.foldlM_cons, h.enter hfile hp']
    exact ih hnames

end

theorem Reaches.names_eq (h : t.Reaches path directory name) :
    Path.names path = (Path.names path).dropLast ++ [name] := by
  obtain ⟨names, hnames⟩ := List.getLast?_eq_some_iff.1 h.last
  rw [hnames, List.dropLast_concat]

theorem Reaches.find (h : t.Reaches path directory name)
    (hputs : t.Puts (directory ++ [name]) content after) :
    after.find path = .ok (directory ++ [name]) := by
  have hsome : (after.entryAt? (directory ++ [name])).isSome := by
    rw [hputs.entryAt?_eq h.notDirectory, if_pos rfl]
    rfl
  have hentered := hputs.foldlM_enter h.notDirectory h.entered
  have henter : after.enter directory name = .ok (directory ++ [name]) := by
    rw [Tree.enter, hputs.isDirectory_eq h.notDirectory, h.inDirectory, if_neg (by decide),
      if_neg (by rw [h.notDots]; exact Bool.false_ne_true), if_neg (Nat.not_lt.2 h.length),
      child_of_not_dots h.notDots]
    exact if_pos hsome
  rw [Tree.find, h.checked, hputs.origin, h.names_eq, List.foldlM_append, hentered]
  simp only [bind, Except.bind, List.foldlM_cons, List.foldlM_nil, henter, pure, Except.pure,
    h.noSlash, Bool.false_and, if_neg Bool.false_ne_true]

theorem Reaches.read (h : t.Reaches path directory name)
    (hputs : t.Puts (directory ++ [name]) content after) : after.read path = .ok content := by
  have hentry := hputs.entryAt?_eq h.notDirectory (directory ++ [name])
  rw [if_pos rfl] at hentry
  rw [Tree.read, h.find hputs]
  simp only [bind, Except.bind, hentry]

theorem write_eq_error_iff {e : FileError} :
    t.write path content = .error e ↔ t.target path = .error e := by
  rw [write]
  cases t.target path with
  | error e' => exact ⟨fun h => by cases h; rfl, fun h => by cases h; rfl⟩
  | ok location => exact ⟨nofun, nofun⟩

def Replaces (t : Tree) (path content : Bytes) (after : Tree) : Prop :=
  ∃ location, t.target path = .ok location ∧ t.Puts location content after ∧
    after.read path = .ok content

theorem replaces_of_write (h : t.write path content = .ok after) :
    t.Replaces path content after := by
  obtain ⟨location, htarget, h⟩ := exists_of_bind_eq_ok h
  cases h
  obtain ⟨directory, name, rfl, hreaches⟩ := exists_reaches htarget
  exact ⟨_, htarget, puts_insert, hreaches.read puts_insert⟩

end RecordSheet.Tree
