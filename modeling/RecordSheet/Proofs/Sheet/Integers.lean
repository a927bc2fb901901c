import RecordSheet.Proofs.Json.OutOfRange
import RecordSheet.Proofs.Json.WholeNumber
import RecordSheet.Proofs.Records.Bytes
import RecordSheet.Proofs.Sheet.Quotes
import RecordSheet.Sheet.Basic

namespace RecordSheet

open Json Utf8

/-- The form of a record that counts: its last `uri` is a string that is more than white space. -/
inductive Json.Form.HasUri : Form → Prop
  | mk {before behind : List (List StringUnit × Form)} {key us : List StringUnit} {uri : Text}
      (hkey : decode? key = some uriKey) (hlast : ∀ m ∈ behind, decode? m.1 ≠ some uriKey)
      (huri : decode? us = some uri) (hblank : ∃ c ∈ uri, isBlank c = false) :
      HasUri (.object (before ++ (key, .string us) :: behind))

/-- The open value is in a record that counts, which is an item of the `data` of a document. -/
inductive Json.Context.InRecord : Context → Prop
  | mk {before behind : List (List StringUnit × Form)} {key : List StringUnit}
      {earlier later : List Form} {place : Context} (hkey : decode? key = some dataKey)
      (hrecord : (place.fill .null).HasUri) :
      InRecord (.member before key (.item earlier place later) behind)

/-- A gap in a sheet: the rows around its row, and what is around it in the data field. -/
structure Sheet.Gap where
  above : List Row
  uri : Text
  front : Text
  back : Text
  below : List Row

namespace Sheet.Gap

def rows (p : Gap) (shown : Text) : List Row :=
  p.above ++ ⟨p.uri, p.front ++ shown ++ p.back⟩ :: p.below

theorem rows_injective (p : Gap) : Function.Injective p.rows := by
  intro shown shown' h
  have hrow := (List.cons.inj (List.append_cancel_left h)).1
  exact List.append_cancel_left (List.append_cancel_right (Row.mk.inj hrow).2)

end Sheet.Gap

/-- A document is read, as text and as bytes, and its sheet shows a text in a gap. -/
def Shows (p : Sheet.Gap) (t shown : Text) : Prop :=
  ∃ records, Record.ofText t = .ok records ∧ Record.ofBytes (encode t) = .ok records ∧
    (Sheet.ofRecords records).rows = p.rows shown

/-- A document is refused, as text and as bytes, for a number out of range. -/
def RefusedForNumber (t : Text) : Prop :=
  ∃ place place' : Position,
    Record.ofText t = .error (.notJson ("number out of range at ".toList ++ place.render)) ∧
    Record.ofBytes (encode t) =
      .error (.notJson ("number out of range at ".toList ++ place'.render))

section

variable {room : Nat} {f : Form} {C : Context} {g : Json → Json} {j : Json} {l : Literal} {t : Text}

theorem Json.Form.HasUri.hasUri (h : f.HasUri) (hj : f.Denotes room j) :
    (Record.mk j).hasUri := by
  cases h with
  | @mk before behind key us uri hkey hlast huri hblank =>
    cases room with
    | zero => exact absurd hj.1 (Nat.not_succ_le_zero _)
    | succ room =>
      obtain ⟨_, hmembers, rfl⟩ := Form.denotes_object_iff.1 hj
      obtain ⟨pairs, _, rfl, -, hrest⟩ := exists_of_forall₂_append hmembers
      cases hrest with
      | @cons _ pair _ others hm hbehind =>
        obtain ⟨k, v⟩ := pair
        obtain ⟨hk, -, hv⟩ := hm
        obtain rfl : uriKey = k := Option.some.inj (hkey.symm.trans hk)
        rw [Form.value?, huri, Option.map_some] at hv
        cases hv
        rw [Record.hasUri_eq_true_iff]
        refine ⟨uri, Record.uri?_eq_some_iff.2 ⟨_, rfl, ?_⟩, hblank⟩
        rw [lookup_latest,
          lookup_reverse_append_cons pairs (Context.key_ne_of_decode?_ne hbehind hlast), if_pos rfl]

/-- Whether the open value is a number or nothing does not matter for the URI of a record. -/
theorem Json.Context.Denotes.uri?_eq (h : C.Denotes room g) (hC : C.Lasts) (n : Number) :
    (Record.mk (g (.number n))).uri? = (Record.mk (g .null)).uri? := by
  have htext : ∀ {room C g}, Denotes room C g → (g (.number n)).text? = (g .null).text? := by
    intro room C g h
    cases h with
    | here => rfl
    | item => rfl
    | member => rfl
  cases h with
  | here => rfl
  | item => rfl
  | @member _ _ _ _ _ _ pairs others g _ hkey hinner hbehind =>
    obtain ⟨hlast, -⟩ := hC
    rw [hkey] at hlast
    have hothers := key_ne_of_decode?_ne hbehind hlast
    simp only [Record.uri?, Json.field?, lookup_latest, lookup_reverse_append_cons pairs hothers]
    split
    · exact htext hinner
    · rfl

theorem rows_append_cons (records : List Record) {r : Record} (h : r.hasUri)
    (others : List Record) : (Sheet.ofRecords (records ++ r :: others)).rows =
      (Sheet.ofRecords records).rows ++ Row.ofRecord r :: (Sheet.ofRecords others).rows := by
  rw [Sheet.ofRecords, List.filter_append, List.filter_cons_of_pos h, List.map_append,
    List.map_cons]
  rfl

theorem data_eq_of_render_eq {front back : Text} {n : Number}
    (h : j.render = front ++ n.render ++ back) :
    doubleQuotes j.render = doubleQuotes front ++ n.render ++ doubleQuotes back := by
  rw [h, doubleQuotes, List.flatMap_append, List.flatMap_append]
  change doubleQuotes front ++ doubleQuotes n.render ++ doubleQuotes back = _
  rw [doubleQuotes_of_notMem n.quote_notMem_render]

theorem exists_gap (h : C.Denotes depthLimit g) (hC : C.Lasts) (hrecord : C.InRecord) :
    ∃ p : Sheet.Gap, ∀ n : Number, ∃ records, Record.ofJson (g (.number n)) = .ok records ∧
      (Sheet.ofRecords records).rows = p.rows n.render := by
  obtain ⟨hdata, hfill⟩ := hrecord
  obtain ⟨hlast, hplace⟩ := hC
  rw [hdata] at hlast
  cases h with
  | @member _ _ _ _ _ k pairs others _ _ hkey hinner hbehind =>
    obtain rfl : dataKey = k := Option.some.inj (hdata.symm.trans hkey)
    cases hinner with
    | @item _ _ _ _ js ks g _ hg _ =>
      have hkept := hfill.hasUri (hg.fill (j := .null) ⟨Nat.le_refl _, rfl⟩)
      obtain ⟨front, back, hrender⟩ := hg.exists_render hplace
      refine ⟨⟨(Sheet.ofRecords (js.map Record.mk)).rows, (Record.mk (g .null)).uri?.getD [],
        doubleQuotes front, doubleQuotes back, (Sheet.ofRecords (ks.map Record.mk)).rows⟩,
        fun n => ⟨(js ++ g (.number n) :: ks).map Record.mk, ?_, ?_⟩⟩
      · refine Record.ofJson_eq_ok_iff.2 ⟨_, _, rfl, ?_, rfl⟩
        rw [lookup_latest, lookup_reverse_append_cons pairs
          (Context.key_ne_of_decode?_ne hbehind hlast), if_pos rfl]
      · have huri := hg.uri?_eq hplace n
        have hkept' : (Record.mk (g (.number n))).hasUri := by
          rwa [Record.hasUri, huri, ← Record.hasUri]
        rw [List.map_append, List.map_cons, rows_append_cons _ hkept', Row.ofRecord, huri,
          data_eq_of_render_eq (hrender _), Sheet.Gap.rows]

theorem shows_iff {p : Sheet.Gap} {n : Number} {records : List Record} {shown : Text}
    (ht : JsonText t f) (hf : f.Denotes depthLimit j) (hrecords : Record.ofJson j = .ok records)
    (hrows : (Sheet.ofRecords records).rows = p.rows n.render) :
    Shows p t shown ↔ shown = n.render := by
  have htext : Record.ofText t = .ok records :=
    Record.ofText_eq_ok_iff.2 ⟨j, parse_eq_ok_iff.2 ⟨f, ht, hf⟩, hrecords⟩
  constructor
  · rintro ⟨records', htext', -, hrows'⟩
    cases htext.symm.trans htext'
    exact p.rows_injective (hrows'.symm.trans hrows)
  · rintro rfl
    exact ⟨records, htext, Record.ofBytes_eq_ok_iff.2 ⟨t, rfl, htext⟩, hrows⟩

theorem refusedForNumber (hC : C.Reached depthLimit) (hl : l.number? = none)
    (h : JsonText t (C.fill (.number l))) : RefusedForNumber t := by
  obtain ⟨behind, htext⟩ := ofPieces_outOfRange 0 hC hl h
  obtain ⟨behind', hbytes⟩ := ofPieces_outOfRange 1 hC hl h
  rw [chars] at htext hbytes
  have hreason : ∀ n, ∃ place : Position, Fault.render (encode t) ⟨.outOfRange, n⟩ =
      "number out of range at ".toList ++ place.render := fun n => ⟨_, rfl⟩
  obtain ⟨place, hplace⟩ := hreason behind
  obtain ⟨place', hplace'⟩ := hreason behind'
  refine ⟨place, place', ?_, ?_⟩
  · rw [Record.ofText, parse, htext, ← hplace]
    rfl
  · rw [Record.ofBytes, parseBytes, pieces_encode, hbytes, ← hplace']
    rfl

theorem RefusedForNumber.not_shows (h : RefusedForNumber t) (p : Sheet.Gap) (shown : Text) :
    ¬Shows p t shown := by
  rintro ⟨records, htext, -⟩
  obtain ⟨_, _, hrefused, -⟩ := h
  cases hrefused.symm.trans htext

end

/--
A whole number in a record that counts, wherever it is in it and however many digits it has, fills a
gap in the sheet. If no other number of the document is out of range, it is shown there as it is
written exactly if 64 bits hold it and it is not a negative zero. A number of which this is not so is
shown as a floating number, with a point or an exponent, or the document is refused for a number.
-/
theorem whole_number_shown {document : Context} (hsound : (document.fill .null).Sound depthLimit)
    (hlasts : document.Lasts) (hrecord : document.InRecord) :
    ∃ p : Sheet.Gap, ∀ (l : Literal) (z : Int) (u t : Text), l.NumberText u → l.whole? = some z →
      JsonText t (document.fill (.number l)) →
      ((∃ j, (document.fill .null).Denotes depthLimit j) → (Shows p t u ↔ l.Fits z)) ∧
      (¬l.Fits z → (∀ shown, Shows p t shown → '.' ∈ shown ∨ 'e' ∈ shown) ∧
        ((∃ x : Binary64, l.rounded? = some x ∧ Shows p t x.render) ∨ RefusedForNumber t)) := by
  by_cases hothers : ∃ j, (document.fill .null).Denotes depthLimit j
  · obtain ⟨_, hj⟩ := hothers
    obtain ⟨g, hg⟩ := Context.exists_denotes hj
    obtain ⟨p, hp⟩ := exists_gap hg hlasts hrecord
    have hshown : ∀ {l : Literal} {n t shown}, l.number? = some n →
        JsonText t (document.fill (.number l)) → (Shows p t shown ↔ shown = n.render) := by
      intro l n t shown hn ht
      have hl : (Form.number l).Denotes 0 (.number n) := by
        refine ⟨Nat.le_refl _, ?_⟩
        rw [Form.value?, l.value?_eq_number?, hn, Option.map_some]
      obtain ⟨records, hrecords, hrows⟩ := hp n
      exact shows_iff ht (hg.fill hl) hrecords hrows
    refine ⟨p, fun l z u t hu hz ht => ?_⟩
    have hwritten := hu.eq_text (Literal.whole?_eq_some_iff.1 hz).2.1
    by_cases hfits : l.Fits z
    · obtain ⟨n, rfl, hn⟩ := Literal.number?_of_fits hz hfits
      have hprinted := Literal.signedDecimal_of_whole hu.wellFormed hz hfits.2.2
      refine ⟨fun _ => ⟨fun _ => hfits, fun _ => (hshown hn ht).2 ?_⟩, fun h => absurd hfits h⟩
      rw [Number.render, hprinted, hwritten]
    · have hnumber := Literal.number?_of_not_fits hz hfits
      cases hx : l.rounded? with
      | none =>
        rw [hx, Option.map_none] at hnumber
        have hrefused := refusedForNumber hg.reached hnumber ht
        exact ⟨fun _ => ⟨fun h => absurd h (hrefused.not_shows p u), fun h => absurd h hfits⟩,
          fun _ => ⟨fun shown h => absurd h (hrefused.not_shows p shown), .inr hrefused⟩⟩
      | some x =>
        rw [hx, Option.map_some] at hnumber
        have hfloat : ∀ shown, Shows p t shown → '.' ∈ shown ∨ 'e' ∈ shown := by
          intro shown h
          rw [(hshown hnumber ht).1 h]
          exact x.mem_render
        refine ⟨fun _ => ⟨fun h => ?_, fun h => absurd h hfits⟩,
          fun _ => ⟨hfloat, .inl ⟨x, rfl, (hshown hnumber ht).2 rfl⟩⟩⟩
        have hwhole := Literal.notMem_text_of_whole hu.wellFormed hz
        exact absurd (hfloat u h) (hwritten ▸ hwhole)
  · -- another number is out of range, and nothing is shown at all
    refine ⟨⟨[], [], [], [], []⟩, fun l z u t hu hz ht => ⟨fun h => absurd h hothers, fun _ => ?_⟩⟩
    rcases (Context.sound_fill hsound l).denotes_or_isRefused with ⟨j, hj⟩ | ⟨C, m, hfill, hC, hm⟩
    · obtain ⟨g, hg⟩ := Context.exists_denotes hj
      exact absurd ⟨_, hg.fill (j := .null) ⟨Nat.le_refl _, rfl⟩⟩ hothers
    · have hrefused := refusedForNumber hC hm (hfill ▸ ht)
      exact ⟨fun shown h => absurd h (hrefused.not_shows _ shown), .inr hrefused⟩

section

def needsNoEscapes (t : Text) : Bool :=
  t.all fun c => c ≠ '"' && c ≠ '\\' && 0x20 ≤ c.toNat

theorem unitsText_map_char {t : Text} (h : needsNoEscapes t) : UnitsText t (t.map .char) := by
  induction t with
  | nil => exact .nil
  | cons c t ih =>
    rw [needsNoEscapes, List.all_cons, ← needsNoEscapes] at h
    simp only [Bool.and_eq_true, decide_eq_true_eq] at h
    obtain ⟨⟨⟨hquote, hescape⟩, hcontrol⟩, ht⟩ := h
    exact .cons (.plain hquote hescape hcontrol) (ih ht)

theorem paddedText_self {α : Type} {part : Text → α → Prop} {t : Text} {a : α} (h : part t a) :
    PaddedText part t a := by
  have hpadded := PaddedText.mk space_nil h space_nil
  rwa [List.nil_append, List.append_nil] at hpadded

def plainMember (key value : Text) : Text :=
  '"' :: key ++ ['"'] ++ ':' :: value

theorem memberText_plainMember (key : Text) {value : Text} {f : Form}
    (hkey : needsNoEscapes key) (h : ValueText value f) :
    MemberText ValueText (plainMember key value) (key.map .char, f) :=
  .mk (paddedText_self (.mk (unitsText_map_char hkey))) (paddedText_self h)

/-- A document with one record, in which one value is left open. -/
def numberSample : Context :=
  .member [] (dataKey.map .char)
    (.item [] (.member [(uriKey.map .char, .string [.char 'u'])] [.char 'n'] .here []) []) []

def numberSampleText (n : Nat) : Text :=
  '\x7b' :: plainMember dataKey ('[' :: ('\x7b' :: (plainMember uriKey ['"', 'u', '"'] ++
    ',' :: plainMember ['n'] (decimal n)) ++ ['\x7d']) ++ [']']) ++ ['\x7d']

def Literal.ofNat (n : Nat) : Literal :=
  ⟨false, decimal n, none, none⟩

theorem Literal.numberText_ofNat (n : Nat) : (ofNat n).NumberText (decimal n) := by
  have hnumeral : IsNumeral (decimal n) := ⟨decimal_ne_nil n, fun _ => isDigit_of_mem_decimal⟩
  have hl : (ofNat n).WellFormed :=
    ⟨hnumeral, fun _ h => (decimal_head_zero h).2, nofun, nofun⟩
  have htext := NumberText.positive rfl hl.unsignedText
  rwa [unsigned, ofNat, fractionText, exponentText, List.append_nil, List.append_nil] at htext

theorem Literal.whole?_ofNat (n : Nat) : (ofNat n).whole? = some (n : Int) := by
  rw [whole?_eq_some_iff, ofNat, if_neg Bool.false_ne_true, digitsValue_decimal]
  exact ⟨rfl, rfl, rfl⟩

theorem jsonText_numberSample (n : Nat) :
    JsonText (numberSampleText n) (numberSample.fill (.number (.ofNat n))) := by
  have huri : MemberText ValueText (plainMember uriKey ['"', 'u', '"'])
      (uriKey.map .char, .string [.char 'u']) :=
    memberText_plainMember uriKey rfl
      (.string (.mk (unitsText_map_char (t := ['u']) rfl)))
  have hn := memberText_plainMember ['n'] rfl (.number (Literal.numberText_ofNat n))
  have hrecord := ValueText.object (.parts (.more huri (.one hn)))
  have hitems := ValueText.array (.parts (.one (paddedText_self hrecord)))
  have hdata := memberText_plainMember dataKey rfl hitems
  exact paddedText_self (.object (.parts (.one hdata)))

end

/-- The largest number that 64 bits hold is shown as it is, and the next one as a floating number. -/
theorem whole_number_shown_limit : ∃ p : Sheet.Gap,
    Shows p (numberSampleText 18446744073709551615) (decimal 18446744073709551615) ∧
    ¬Shows p (numberSampleText 18446744073709551616) (decimal 18446744073709551616) ∧
    Shows p (numberSampleText 18446744073709551616) "1.8446744073709552e+19".toList := by
  have hothers : (numberSample.fill .null).Denotes depthLimit
      (.object [(dataKey, .array [.object [(uriKey, .string ['u']), (['n'], .null)]])]) :=
    ⟨by decide, rfl⟩
  have hrecord : numberSample.InRecord :=
    .mk rfl (@Form.HasUri.mk [] [([.char 'n'], .null)] (uriKey.map .char) [.char 'u'] ['u'] rfl
      (List.forall_mem_singleton.2 (by decide)) rfl ⟨'u', List.mem_cons_self, rfl⟩)
  obtain ⟨p, hp⟩ := whole_number_shown hothers.sound
    ⟨List.forall_mem_nil _, List.forall_mem_nil _, trivial⟩ hrecord
  have hnumber := fun n : Nat => hp (.ofNat n) n (decimal n) (numberSampleText n)
    (Literal.numberText_ofNat n) (Literal.whole?_ofNat n) (jsonText_numberSample n)
  obtain ⟨hlargest, -⟩ := hnumber 18446744073709551615
  obtain ⟨hnext, hfloat⟩ := hnumber 18446744073709551616
  have hfits : ¬(Literal.ofNat 18446744073709551616).Fits 18446744073709551616 :=
    fun h => absurd h.2.1 (by decide)
  refine ⟨p, (hlargest ⟨_, hothers⟩).2 ⟨by decide, by decide, by decide⟩,
    fun h => hfits ((hnext ⟨_, hothers⟩).1 h), ?_⟩
  rcases (hfloat hfits).2 with ⟨x, hx, h⟩ | ⟨_, _, h, -⟩
  · have hrender : (Literal.ofNat 18446744073709551616).rounded?.map Binary64.render =
        some "1.8446744073709552e+19".toList := by
      decide +kernel
    rw [hx] at hrender
    rwa [Option.some.inj hrender] at h
  · have hread : (Record.ofText (numberSampleText 18446744073709551616)).isOk = true := by
      decide +kernel
    rw [h] at hread
    cases hread

end RecordSheet
