import RecordSheet.Proofs.Run.Effects

namespace RecordSheet

open Command Log

namespace Tree

variable {t u : Tree} {invocation : Invocation} {options : Options} {stdin path : Bytes}
  {change : Change}

/-- The paths along which a run reads, looks for its settings or tries to write. -/
def usedPaths (t : Tree) (invocation : Invocation) (stdin : Bytes) : List Bytes :=
  t.readPaths invocation ++ (t.outputPath? invocation stdin).toList

theorem exists_effect_of_change? (hoptions : invocation.options = .ok options)
    (h : t.change? invocation stdin = some change) :
    ∃ text, t.effect options invocation.directoryName stdin = .ok (text, some change) := by
  rw [change?, hoptions] at h
  obtain ⟨⟨text, _⟩, heffect, rfl⟩ := Option.bind_eq_some_iff.1 h
  exact ⟨text, toOption_eq_some_iff.1 heffect⟩

theorem exists_target_of_change? (h : t.change? invocation stdin = some change) :
    ∃ path, t.outputPath? invocation stdin = some path ∧ t.target path = .ok change.location := by
  cases hoptions : invocation.options with
  | error ending =>
    rw [change?, hoptions] at h
    cases h
  | ok options =>
    obtain ⟨text, heffect⟩ := exists_effect_of_change? hoptions h
    obtain ⟨plan, hplan, hrest⟩ := exists_of_bind_eq_ok heffect
    obtain ⟨records, hrecords, hdelivery⟩ := exists_of_bind_eq_ok hrest
    rw [delivery] at hdelivery
    split at hdelivery
    · cases hdelivery
    · rename_i houtput
      obtain ⟨location, htarget, hdelivery⟩ := exists_of_bind_eq_ok hdelivery
      cases hdelivery
      refine ⟨plan.output, ?_, eq_ok_of_mapError_eq_ok htarget⟩
      simp [outputPath?, hoptions, hplan, hrecords, houtput, Except.toOption]

theorem isDirectory_of_change? (h : t.change? invocation stdin = some change) :
    t.isDirectory change.location = false := by
  obtain ⟨_, -, htarget⟩ := exists_target_of_change? h
  obtain ⟨directory, name, hlocation, hreaches⟩ := exists_reaches htarget
  rw [hlocation]
  exact hreaches.notDirectory

/-- A run does not notice a change that is on none of the paths it uses. -/
theorem findsSame_apply {other : Option Change}
    (hfile : ∀ c ∈ other, t.isDirectory c.location = false)
    (h : ∀ c ∈ other, ∀ path ∈ t.usedPaths invocation stdin, ¬t.AtOrBelow path c.location) :
    t.FindsSame (t.apply other) invocation stdin := by
  cases other with
  | none => exact ⟨fun _ _ => rfl, fun _ _ => rfl⟩
  | some c =>
    have hagrees : ∀ path ∈ t.usedPaths invocation stdin, t.Agrees (t.apply (some c)) path :=
      fun path hpath => puts_insert.agrees (hfile c rfl) (h c rfl path hpath)
    constructor
    · intro path hpath
      exact (hagrees path (List.mem_append_left _ hpath)).read
    · intro path hpath
      exact (hagrees path (List.mem_append_right _ (Option.mem_toList.2 hpath))).target

end Tree

/--
Two runs, each with paths that are not affected by what the other one writes: none of them is the
path of the file that is written, or lies below it. Whichever run comes first, each of them has the
same exit code, output and messages, but for the times in its log, and the tree is the same at the
end.
-/
theorem runIn_comm {a b : Invocation} {stdinA stdinB : Bytes} {t : Tree}
    (ha : ∀ change ∈ t.change? b stdinB, ∀ path ∈ t.usedPaths a stdinA,
      ¬t.AtOrBelow path change.location)
    (hb : ∀ change ∈ t.change? a stdinA, ∀ path ∈ t.usedPaths b stdinB,
      ¬t.AtOrBelow path change.location)
    (now later now' later' : Clock) :
    let first := runIn a now stdinA t
    let second := runIn b later stdinB first.2
    let first' := runIn b now' stdinB t
    let second' := runIn a later' stdinA first'.2
    second'.1.status.code = first.1.status.code ∧ second'.1.stdout = first.1.stdout ∧
      second.1.status.code = first'.1.status.code ∧ second.1.stdout = first'.1.stdout ∧
      (∀ masked,
        (runIn a masked stdinA first'.2).1.stderr = (runIn a masked stdinA t).1.stderr ∧
        (runIn b masked stdinB first.2).1.stderr = (runIn b masked stdinB t).1.stderr) ∧
      second'.2 = second.2 := by
  have hnotA : t.FindsSame (t.apply (t.change? b stdinB)) a stdinA :=
    Tree.findsSame_apply (fun _ hc => Tree.isDirectory_of_change? hc) ha
  have hnotB : t.FindsSame (t.apply (t.change? a stdinA)) b stdinB :=
    Tree.findsSame_apply (fun _ hc => Tree.isDirectory_of_change? hc) hb
  have hapart : ∀ c ∈ t.change? a stdinA, ∀ d ∈ t.change? b stdinB, c.location ≠ d.location := by
    intro c hc d hd heq
    obtain ⟨path, hpath, htarget⟩ := Tree.exists_target_of_change? hd
    refine hb c hc path (List.mem_append_right _ (Option.mem_toList.2 hpath)) ?_
    rw [heq, ← Tree.place_of_target htarget]
    exact Tree.atOrBelow_place t path
  dsimp only
  rw [snd_runIn a now, snd_runIn b now', snd_runIn a later', snd_runIn b later, hnotA.change?,
    hnotB.change?, hnotA.fst_runIn, hnotB.fst_runIn]
  obtain ⟨hstatusA, hstdoutA⟩ := runIn_any_clock a now stdinA t later'
  obtain ⟨hstatusB, hstdoutB⟩ := runIn_any_clock b later stdinB t now'
  exact ⟨congrArg Status.code hstatusA, hstdoutA, congrArg Status.code hstatusB.symm, hstdoutB.symm,
    fun masked => ⟨by rw [hnotA.fst_runIn masked], by rw [hnotB.fst_runIn masked]⟩,
    (t.apply_comm hapart).symm⟩

def emptyDocumentTree : Tree :=
  (homeTree [(Utf8.encode "i".toList, Utf8.encode "\x7b\"data\":[]\x7d".toList)]).put
    (home ++ [Utf8.encode "d".toList]) .directory

def plainRun : Invocation :=
  plainInvocation ["i".toList, "-o".toList, "/w/x".toList]

/-- A run with paths that lead out of the directory and back, and into another one and back. -/
def roundaboutRun : Invocation :=
  plainInvocation ["../w/i".toList, "-o".toList, "d/../y".toList]

theorem runIn_comm_shared_document :
    let clock : Clock := ⟨fun _ => [], []⟩
    let t := emptyDocumentTree
    let first := runIn plainRun clock [] t
    let second := runIn roundaboutRun clock [] first.2
    let first' := runIn roundaboutRun clock [] t
    let second' := runIn plainRun clock [] first'.2
    (∀ change ∈ t.change? roundaboutRun [], ∀ path ∈ t.usedPaths plainRun [],
      ¬t.AtOrBelow path change.location) ∧
    (∀ change ∈ t.change? plainRun [], ∀ path ∈ t.usedPaths roundaboutRun [],
      ¬t.AtOrBelow path change.location) ∧
    second'.1.status.code = first.1.status.code ∧ second'.1.stdout = first.1.stdout ∧
      second.1.status.code = first'.1.status.code ∧ second.1.stdout = first'.1.stdout ∧
      (∀ masked,
        (runIn plainRun masked [] first'.2).1.stderr = (runIn plainRun masked [] t).1.stderr ∧
        (runIn roundaboutRun masked [] first.2).1.stderr =
          (runIn roundaboutRun masked [] t).1.stderr) ∧
      second'.2 = second.2 := by
  have ha : ∀ change ∈ emptyDocumentTree.change? roundaboutRun [],
      ∀ path ∈ emptyDocumentTree.usedPaths plainRun [],
        ¬emptyDocumentTree.AtOrBelow path change.location := by
    decide +kernel
  have hb : ∀ change ∈ emptyDocumentTree.change? plainRun [],
      ∀ path ∈ emptyDocumentTree.usedPaths roundaboutRun [],
        ¬emptyDocumentTree.AtOrBelow path change.location := by
    decide +kernel
  exact ⟨ha, hb, runIn_comm ha hb ⟨fun _ => [], []⟩ ⟨fun _ => [], []⟩ ⟨fun _ => [], []⟩
    ⟨fun _ => [], []⟩⟩

namespace Tree

section

variable {t u : Tree} {location : Location} {content : Bytes}
  (h : t.Puts location content u) (hfile : t.isDirectory location = false)
  {explicit : Option Bytes} {directory : Bytes}
  (hplace : t.place (explicit.getD (Path.join directory Settings.fileName)) ≠ location)
include h hfile hplace

theorem Puts.source_eq : u.source explicit directory = t.source explicit directory := by
  cases explicit with
  | some path => rfl
  | none => exact source_none_congr (h.isFile_eq hfile hplace)

theorem Puts.settings_eq {s : Settings} (hsettings : t.settings explicit directory = .ok s) :
    u.settings explicit directory = t.settings explicit directory := by
  rw [Tree.settings, Tree.settings, h.source_eq hfile hplace]
  cases explicit with
  | some path =>
    obtain ⟨text, htext, -⟩ := settingsAt_eq_ok_iff.1 hsettings
    have hread := readText_eq_ok_iff.1 htext
    exact settingsAt_congr (((h.read_eq_ok_iff hfile hplace).2 hread).trans hread.symm)
  | none =>
    refine settingsFrom_source_none_congr fun hisFile => ?_
    obtain ⟨bytes, hread⟩ := exists_read_of_isFile hisFile
    exact ((h.read_eq_ok_iff hfile hplace).2 hread).trans hread.symm

end

variable {t u : Tree} {invocation : Invocation} {options : Options} {stdin : Bytes}
  {change : Change}

/-- A run that succeeds notices no change of its own, unless it has changed what it reads. -/
theorem runsSame_apply (hoptions : invocation.options = .ok options)
    (hchange : t.change? invocation stdin = some change)
    (hapart : ∀ path ∈ t.readPaths invocation, t.place path ≠ change.location) :
    t.RunsSame (t.apply (some change)) options invocation.directoryName stdin := by
  have hputs : t.Puts change.location change.content (t.apply (some change)) := puts_insert
  have hfile := isDirectory_of_change? hchange
  obtain ⟨text, heffect⟩ := exists_effect_of_change? hoptions hchange
  obtain ⟨plan, hplan, hrest⟩ := exists_of_bind_eq_ok heffect
  obtain ⟨records, hrecords, hdelivery⟩ := exists_of_bind_eq_ok hrest
  obtain ⟨settings, hsettings, -⟩ := exists_of_bind_eq_ok hplan
  rw [readPaths, hoptions] at hapart
  dsimp only at hapart
  rw [hplan, List.forall_mem_cons] at hapart
  obtain ⟨hsettingsApart, hinputApart⟩ := hapart
  have hsource := hputs.source_eq hfile hsettingsApart
  have hsame := hputs.settings_eq hfile hsettingsApart hsettings
  refine ⟨?_, ?_, ?_, ?_⟩
  · rw [toldOfSettings, toldOfSettings, hsource, hsame]
  · rw [Tree.plan, Tree.plan, hsame]
  · intro p hp
    obtain rfl : plan = p := Except.ok.inj (hplan.symm.trans hp)
    apply records_congr
    intro path hpath
    rw [hpath] at hrecords
    obtain ⟨document, hdocument, -⟩ := exists_of_bind_eq_ok hrecords
    have hread := readText_eq_ok_iff.1 (eq_ok_of_mapError_eq_ok hdocument)
    have hinput := hinputApart path (Option.mem_toList.2 hpath)
    exact ((hputs.read_eq_ok_iff hfile hinput).2 hread).trans hread.symm
  · intro p rs hp hrs sheet counts
    obtain rfl : plan = p := Except.ok.inj (hplan.symm.trans hp)
    rw [delivery, delivery]
    rw [delivery] at hdelivery
    split at hdelivery
    · cases hdelivery
    · rename_i houtput
      obtain ⟨location, htarget, hdelivery⟩ := exists_of_bind_eq_ok hdelivery
      cases hdelivery
      have htarget := eq_ok_of_mapError_eq_ok htarget
      obtain ⟨directory, name, rfl, hreaches⟩ := exists_reaches htarget
      rw [if_neg houtput, if_neg houtput, htarget, hreaches.target hputs]

end Tree

/--
A run that succeeds, and whose output is neither its document nor where its settings are looked for,
can be made again: it succeeds again with the same output, and leaves the tree as it is.
-/
theorem runIn_again {invocation : Invocation} {stdin : Bytes} {t : Tree} (now later : Clock)
    (hsuccess : (runIn invocation now stdin t).1.status.code = 0)
    (hapart : ∀ change ∈ t.change? invocation stdin, ∀ path ∈ t.readPaths invocation,
      t.place path ≠ change.location) :
    let first := runIn invocation now stdin t
    let again := runIn invocation later stdin first.2
    again.1.status.code = 0 ∧ again.1.stdout = first.1.stdout ∧ again.2 = first.2 := by
  dsimp only
  obtain ⟨hstatus, hstdout⟩ := runIn_any_clock invocation now stdin t later
  cases hoptions : invocation.options with
  | error ending =>
    rw [runIn_of_ending _ _ _ _ hoptions, runIn_of_ending _ _ _ _ hoptions]
    rw [runIn_of_ending _ _ _ _ hoptions] at hsuccess
    exact ⟨hsuccess, rfl, rfl⟩
  | ok options =>
    have hsame : t.RunsSame (t.apply (t.change? invocation stdin)) options
        invocation.directoryName stdin := by
      cases hchange : t.change? invocation stdin with
      | none => exact .refl t
      | some change => exact Tree.runsSame_apply hoptions hchange (hapart change hchange)
    rw [snd_runIn invocation now, snd_runIn, hsame.change? hoptions,
      hsame.fst_runIn later hoptions, hstatus, hstdout]
    exact ⟨hsuccess, rfl, t.apply_apply _⟩

def olderOutputTree : Tree :=
  emptyDocumentTree.put (home ++ [Utf8.encode "x".toList]) (.file (Utf8.encode "older".toList))

theorem runIn_again_longer_output :
    let clock : Clock := ⟨fun _ => [], []⟩
    let first := runIn plainRun clock [] olderOutputTree
    let again := runIn plainRun clock [] first.2
    first.1.status.code = 0 ∧
    (∀ change ∈ olderOutputTree.change? plainRun [], ∀ path ∈ olderOutputTree.readPaths plainRun,
      olderOutputTree.place path ≠ change.location) ∧
    again.1.status.code = 0 ∧ again.1.stdout = first.1.stdout ∧ again.2 = first.2 := by
  have hsuccess : (runIn plainRun ⟨fun _ => [], []⟩ [] olderOutputTree).1.status.code = 0 := by
    decide +kernel
  have hapart : ∀ change ∈ olderOutputTree.change? plainRun [],
      ∀ path ∈ olderOutputTree.readPaths plainRun,
        olderOutputTree.place path ≠ change.location := by
    decide +kernel
  exact ⟨hsuccess, hapart, runIn_again ⟨fun _ => [], []⟩ ⟨fun _ => [], []⟩ hsuccess hapart⟩

end RecordSheet
