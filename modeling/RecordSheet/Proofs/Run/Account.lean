import RecordSheet.Proofs.Log.Note
import RecordSheet.Proofs.Run.Events
import RecordSheet.Proofs.Run.Reports

namespace RecordSheet

open Command Log

section

variable {records : List Record} {items : List Json} {index : Nat}

theorem skipped_eq (index : Nat) (records : List Record) : skipped index records =
    ((records.zipIdx index).filter fun p => !p.1.hasUri).map Prod.snd := by
  induction records generalizing index with
  | nil => rfl
  | cons r records ih =>
    rw [skipped, List.zipIdx_cons, List.filter_cons, ih]
    cases r.hasUri with
    | true => rfl
    | false => rfl

theorem mem_skipped_iff : index ∈ skipped 0 records ↔
    ∃ r, records[index]? = some r ∧ r.hasUri = false := by
  simp [skipped_eq, List.mem_zipIdx_iff_getElem?]

theorem pairwise_skipped (index : Nat) (records : List Record) :
    (skipped index records).Pairwise (· < ·) := by
  have hall : ((records.zipIdx index).map Prod.snd).Pairwise (· < ·) := by
    rw [List.zipIdx_map_snd]
    exact List.pairwise_lt_range'
  rw [skipped_eq]
  exact hall.sublist (List.filter_sublist.map Prod.snd)

theorem length_skipped (index : Nat) (records : List Record) :
    (skipped index records).length + records.countP Record.hasUri = records.length := by
  induction records generalizing index with
  | nil => rfl
  | cons r records ih =>
    have hrest := ih (index + 1)
    rw [skipped, List.countP_cons, List.length_cons]
    cases r.hasUri with
    | true => simp; omega
    | false => simp; omega

theorem mem_skipped_items_iff : index ∈ skipped 0 (items.map Record.mk) ↔
    ∃ j, items[index]? = some j ∧ ¬j.HasUri := by
  simp [mem_skipped_iff, ← Record.hasUri_mk_iff]

theorem length_skipped_items (items : List Json) :
    (skipped 0 (items.map Record.mk)).length + (rowLines items).length = items.length := by
  have hskipped := length_skipped 0 (items.map Record.mk)
  have hrows := congrArg List.length (rows_items items)
  rw [List.length_map, Sheet.ofRecords, List.length_map, ← List.countP_eq_length_filter] at hrows
  rwa [hrows, List.length_map] at hskipped

theorem index_lt_of_mem_skipped (h : index ∈ skipped 0 records) : index < records.length := by
  obtain ⟨r, hr, -⟩ := mem_skipped_iff.1 h
  exact (List.getElem?_eq_some_iff.1 hr).1

end

namespace Log

namespace Filter

def debugging : Filter :=
  ⟨[⟨some .debug, some "jsontocsv_core".toList, [], false⟩,
    ⟨some .debug, some "jsontocsv".toList, [], false⟩]⟩

theorem choose_verbose : choose [none, none] true none = (debugging, []) := by
  decide

/-- All events that come with a number are let through. -/
theorem note?_of_enables_debugging (e : Event) :
    (if debugging.enables e then e.note? else none) = e.note? := by
  cases e with
  | _ => rfl

end Filter

end Log

def Command.Options.style (options : Options) : Style :=
  if options.logJson then .json else .compact

theorem Command.Options.style_eq_json_iff {options : Options} :
    options.style = .json ↔ options.logJson = true := by
  rw [style]
  cases options.logJson with
  | true => exact ⟨fun _ => rfl, fun _ => rfl⟩
  | false => exact ⟨nofun, nofun⟩

theorem notes_logText {options : Options} {environment : Environment} {clock : Clock}
    {events : List Event} (hverbose : options.verbose = true) (hlevel : options.logLevel = none)
    (hlog : environment.log = none) (hgeneral : environment.generalLog = none)
    (hclock : clock.Legible)
    (hpaths : ∀ e ∈ events, ∀ path ∈ e.path?, '\n' ∉ Path.display path)
    (hcounts : options.style = .json → ∀ e ∈ events, ∀ n ∈ e.count?, n ≤ 0xFFFFFFFFFFFFFFFF) :
    notes options.style (logText options environment clock events) =
      events.filterMap Event.note? := by
  rw [logText, hlog, hgeneral, hverbose, hlevel, Filter.choose_verbose]
  dsimp only
  rw [← Options.style, List.flatMap_nil, List.nil_append, notes_lines hclock, List.filterMap_filter]
  · exact List.filterMap_congr fun e _ => Filter.note?_of_enables_debugging e
  · exact fun e he => hpaths e (List.mem_of_mem_filter he)
  · exact fun hjson e he => hcounts hjson e (List.mem_of_mem_filter he)

theorem filterMap_note?_source (source : Settings.Source) :
    source.told.filterMap Event.note? = [] := by
  cases source with
  | _ => rfl

theorem filterMap_note?_records (records : List Record) :
    (toldOfRecords records).filterMap Event.note? =
      ("read records".toList, records.length) ::
        (skipped 0 records).map ("skipping record without uri".toList, ·) ++
        [("converted records".toList, (convert records).2.rows)] := by
  have hskipped : ((skipped 0 records).map Event.recordSkipped).filterMap Event.note? =
      (skipped 0 records).map ("skipping record without uri".toList, ·) := by
    rw [List.filterMap_map, ← List.filterMap_eq_map]
    rfl
  rw [toldOfRecords, List.filterMap_append, List.filterMap_append, hskipped]
  rfl

theorem rows_convert_le (records : List Record) : (convert records).2.rows ≤ records.length := by
  rw [convert]
  split
  · exact Nat.zero_le _
  · exact (List.length_map _).trans_le (List.length_filter_le _ _)

namespace Tree

variable {t : Tree} {options : Options} {directoryName stdin : Bytes} {plan : Plan}
  {records : List Record} {p : Text × Tree} (hplan : t.plan options directoryName = .ok plan)
  (hrecords : t.records stdin plan.input = .ok records)
  (hdeliver : t.deliver options plan.output (convert records).1 (convert records).2 = .ok p)
include hplan hrecords hdeliver

theorem told_eq : t.told options directoryName stdin =
      .argumentsParsed :: ((t.source options.config directoryName).told ++ [.settingsLoaded]) ++
        (toldOfRecords records ++ (Destination.ofPath plan.output).told (convert records).1) := by
  obtain ⟨settings, hsettings, -⟩ := exists_of_bind_eq_ok hplan
  rw [told, toldOfSettings, hsettings, hplan, following, following, hrecords, following,
    toldOfOutput, hdeliver, following]

/-- Something holds of all events of a run if it holds of those with a path or a number. -/
theorem forall_told {Q : Event → Prop}
    (hplain : ∀ e : Event, e.path? = none → e.count? = none → Q e)
    (hfound : Q (.settingsFound (Path.join directoryName Settings.fileName)))
    (hread : Q (.recordsRead records.length))
    (hskipped : ∀ index ∈ skipped 0 records, Q (.recordSkipped index))
    (hconverted : Q (.recordsConverted (convert records).2.rows))
    (hwritten : Q (.sheetWritten plan.output (Utf8.size (convert records).1))) :
    ∀ e ∈ t.told options directoryName stdin, Q e := by
  have hsource : ∀ e ∈ (t.source options.config directoryName).told, Q e := by
    unfold source
    split
    · exact List.forall_mem_nil _
    · dsimp only
      split
      · exact List.forall_mem_singleton.2 hfound
      · exact List.forall_mem_nil _
  have houtput : ∀ e ∈ (Destination.ofPath plan.output).told (convert records).1, Q e := by
    rw [Destination.ofPath]
    split
    · exact List.forall_mem_singleton.2 (hplain _ rfl rfl)
    · exact List.forall_mem_cons.2 ⟨hwritten, List.forall_mem_singleton.2 (hplain _ rfl rfl)⟩
  rw [told_eq hplan hrecords hdeliver, toldOfRecords]
  simp only [List.forall_mem_append, List.forall_mem_cons, List.forall_mem_map, List.not_mem_nil,
    false_implies, implies_true, and_true]
  exact ⟨⟨hplain _ rfl rfl, hsource, hplain _ rfl rfl⟩,
    ⟨⟨⟨hread, hplain _ rfl rfl⟩, hskipped⟩, hconverted, hplain _ rfl rfl⟩, houtput⟩

theorem filterMap_note?_told :
    (t.told options directoryName stdin).filterMap Event.note? =
      ("read records".toList, records.length) ::
        (skipped 0 records).map ("skipping record without uri".toList, ·) ++
        ("converted records".toList, (convert records).2.rows) ::
        if plan.output = Path.dash then []
        else [("wrote csv".toList, Utf8.size (convert records).1)] := by
  have houtput : ((Destination.ofPath plan.output).told (convert records).1).filterMap Event.note? =
      if plan.output = Path.dash then []
      else [("wrote csv".toList, Utf8.size (convert records).1)] := by
    rw [Destination.ofPath]
    split
    · rfl
    · rfl
  rw [told_eq hplan hrecords hdeliver, List.filterMap_append, List.filterMap_append,
    List.filterMap_cons_none rfl, List.filterMap_append, filterMap_note?_source,
    List.filterMap_cons_none rfl, filterMap_note?_records, houtput]
  exact List.append_assoc _ [_] _

theorem notes_told {environment : Environment} {clock : Clock}
    (hverbose : options.verbose = true) (hlevel : options.logLevel = none)
    (hlog : environment.log = none) (hgeneral : environment.generalLog = none)
    (hclock : clock.Legible)
    (hsettings : '\n' ∉ Path.display (Path.join directoryName Settings.fileName))
    (houtput : '\n' ∉ Path.display plan.output)
    (hcounts : options.style = .json → records.length ≤ 0xFFFFFFFFFFFFFFFF ∧
      Utf8.size (convert records).1 ≤ 0xFFFFFFFFFFFFFFFF) :
    notes options.style (logText options environment clock (t.told options directoryName stdin)) =
      ("read records".toList, records.length) ::
        (skipped 0 records).map ("skipping record without uri".toList, ·) ++
        ("converted records".toList, (convert records).2.rows) ::
        if plan.output = Path.dash then []
        else [("wrote csv".toList, Utf8.size (convert records).1)] := by
  have hpaths : ∀ e ∈ t.told options directoryName stdin,
      ∀ path ∈ e.path?, '\n' ∉ Path.display path := by
    apply forall_told (Q := fun e => ∀ path ∈ e.path?, '\n' ∉ Path.display path) hplan hrecords
      hdeliver
    · intro e hpath _
      rw [hpath]
      exact nofun
    · exact fun _ h => Option.some.inj h ▸ hsettings
    · exact fun _ => nofun
    · exact fun _ _ _ => nofun
    · exact fun _ => nofun
    · exact fun _ h => Option.some.inj h ▸ houtput
  have hnumbers : ∀ e ∈ t.told options directoryName stdin,
      ∀ n ∈ e.count?, n ≤ records.length ∨ n ≤ Utf8.size (convert records).1 := by
    apply forall_told (Q := fun e => ∀ n ∈ e.count?,
      n ≤ records.length ∨ n ≤ Utf8.size (convert records).1) hplan hrecords hdeliver
    · intro e _ hcount
      rw [hcount]
      exact nofun
    · exact fun _ => nofun
    · exact fun _ h => .inl (Option.some.inj h ▸ Nat.le_refl _)
    · exact fun _ hi _ h => .inl (Option.some.inj h ▸ Nat.le_of_lt (index_lt_of_mem_skipped hi))
    · exact fun _ h => .inl (Option.some.inj h ▸ rows_convert_le records)
    · exact fun _ h => .inr (Option.some.inj h ▸ Nat.le_refl _)
  rw [notes_logText hverbose hlevel hlog hgeneral hclock hpaths,
    filterMap_note?_told hplan hrecords hdeliver]
  intro hjson e he n hn
  obtain ⟨hlength, hsize⟩ := hcounts hjson
  rcases hnumbers e he n hn with h | h
  · exact Nat.le_trans h hlength
  · exact Nat.le_trans h hsize

end Tree

/--
What a run has done with the items of its document, and what its log tells of it: which items have no
URI, how many rows there are, and how long the file of the sheet is, if the sheet is not printed. A
list that is held in memory has a length of at most 64 bits.
-/
structure Accounts (t : Tree) (options : Options) (directoryName stdin : Bytes)
    (run : Outcome × Tree) (plan : Plan) (items : List Json) (indexes : List Nat)
    (written : List (Text × Nat)) : Prop where
  hasPlan : t.HasPlan options directoryName plan
  hasItems : t.HasItems stdin plan.input items
  dropped : ∀ index, index ∈ indexes ↔ ∃ j, items[index]? = some j ∧ ¬j.HasUri
  ascending : indexes.Pairwise (· < ·)
  complete : indexes.length + (rowLines items).length = items.length
  printed : plan.output = Path.dash → run.1.stdout = sheetText items ∧ written = []
  saved : plan.output ≠ Path.dash → ∃ bytes, run.2.read plan.output = .ok bytes ∧
    bytes = Utf8.encode (sheetText items) ∧ written = [("wrote csv".toList, bytes.length)]
  log : (options.logJson = true → items.length ≤ 0xFFFFFFFFFFFFFFFF ∧
      (Utf8.encode (sheetText items)).length ≤ 0xFFFFFFFFFFFFFFFF) →
    notes options.style run.1.stderr =
      ("read records".toList, items.length) ::
        indexes.map ("skipping record without uri".toList, ·) ++
        ("converted records".toList, (rowLines items).length) :: written

/--
The log of a run that succeeds and is to be verbose accounts for all items of its document: it tells
how many there are, then the index of each that has no URI, in ascending order, then how many rows the
sheet has, and then the length of the file that the sheet is written into.
-/
theorem runIn_log_accounts {options : Options} (invocation : Invocation) (clock : Clock)
    (stdin : Bytes) (t : Tree) (hoptions : invocation.options = .ok options)
    (hverbose : options.verbose = true) (hlevel : options.logLevel = none)
    (hlog : invocation.environment.log = none) (hgeneral : invocation.environment.generalLog = none)
    (hclock : clock.Legible)
    (hsettings : '\n' ∉ Path.display (Path.join invocation.directoryName Settings.fileName))
    (houtput : ∀ plan, t.HasPlan options invocation.directoryName plan →
      '\n' ∉ Path.display plan.output)
    (hcode : (runIn invocation clock stdin t).1.status.code = 0) :
    ∃ plan items indexes written, Accounts t options invocation.directoryName stdin
      (runIn invocation clock stdin t) plan items indexes written := by
  rw [runIn_of_told invocation clock stdin t hoptions] at hcode ⊢
  dsimp only at hcode ⊢
  cases hperform : t.perform options invocation.directoryName stdin with
  | error failure =>
    rw [hperform] at hcode
    exact absurd hcode failure.code_status_ne_zero
  | ok p =>
    rw [Tree.perform_eq_bind] at hperform
    obtain ⟨plan, hplan, hrest⟩ := exists_of_bind_eq_ok hperform
    obtain ⟨records, hrecords, hdeliver⟩ := exists_of_bind_eq_ok hrest
    have hfound := Tree.resolve_settings_eq_ok_iff.1 hplan
    have hnotes := Tree.notes_told hplan hrecords hdeliver hverbose hlevel hlog hgeneral hclock
      hsettings (houtput plan hfound)
    obtain ⟨items, rfl, hitems⟩ :=
      Tree.exists_items_of_hasDocument (Tree.records_eq_ok_iff.1 hrecords)
    rw [convert_items] at hdeliver hnotes
    rw [List.length_map, ← length_rowLines] at hnotes
    obtain ⟨hprinted, hwritten⟩ := Tree.text_of_deliver hdeliver
    refine ⟨plan, items, skipped 0 (items.map Record.mk), if plan.output = Path.dash then []
      else [("wrote csv".toList, Utf8.size (sheetText items))], ?_⟩
    exact {
      hasPlan := hfound
      hasItems := hitems
      dropped := fun _ => mem_skipped_items_iff
      ascending := pairwise_skipped 0 _
      complete := length_skipped_items items
      printed := fun hdash => ⟨hprinted hdash, if_pos hdash⟩
      saved := fun hfile => ⟨_, (hwritten hfile).1, rfl, if_neg hfile⟩
      log := fun hcounts => hnotes fun hjson => hcounts (Options.style_eq_json_iff.1 hjson) }

def verboseRun : Invocation :=
  plainInvocation ["i".toList, "--verbose".toList, "-o".toList, "/w/o".toList]

def verboseOptions : Options :=
  { Options.none with
    input := some (Utf8.encode "i".toList)
    output := some (Utf8.encode "/w/o".toList)
    verbose := true }

theorem runIn_log_accounts_two_records :
    let clock : Clock := ⟨fun _ => renderTime 0, renderElapsed 0⟩
    verboseRun.options = .ok verboseOptions ∧
    (runIn verboseRun clock [] twoRecordsTree).1.status.code = 0 ∧
    ∃ plan items indexes written,
      Accounts twoRecordsTree verboseOptions verboseRun.directoryName []
        (runIn verboseRun clock [] twoRecordsTree) plan items indexes written := by
  have hoptions : verboseRun.options = .ok verboseOptions := by
    decide +kernel
  have hcode : (runIn verboseRun ⟨fun _ => renderTime 0, renderElapsed 0⟩ []
      twoRecordsTree).1.status.code = 0 := by
    decide +kernel
  have houtput : '\n' ∉ Path.display (Utf8.encode "/w/o".toList) := by
    decide
  exact ⟨hoptions, hcode, runIn_log_accounts verboseRun _ [] twoRecordsTree hoptions rfl rfl rfl rfl
    (legible_render 0 0) (by decide) (fun _ ⟨_, _⟩ => houtput) hcode⟩

/-- The second record of the document has no URI, and the sheet is that of the first. -/
example :
    let clock : Clock := ⟨fun _ => renderTime 0, renderElapsed 0⟩
    notes .compact (runIn verboseRun clock [] twoRecordsTree).1.stderr =
      [("read records".toList, 2), ("skipping record without uri".toList, 1),
        ("converted records".toList, 1), ("wrote csv".toList, 36)] := by
  decide +kernel

end RecordSheet
