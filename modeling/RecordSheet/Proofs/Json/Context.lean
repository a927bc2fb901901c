import RecordSheet.Proofs.Json.Completeness

namespace RecordSheet

theorem joinWith_append_cons (between t : Text) (ts us : List Text) :
    joinWith between (ts ++ t :: us) =
      ts.flatMap (· ++ between) ++ t ++ us.flatMap (between ++ ·) := by
  induction ts with
  | nil => rw [List.nil_append, joinWith_cons, List.flatMap_nil, List.nil_append]
  | cons u ts ih =>
    rw [List.cons_append, joinWith_cons, List.flatMap_cons, List.append_assoc, List.append_assoc,
      List.append_assoc, ← List.append_assoc _ t, ← ih]
    cases ts with
    | nil => rw [List.nil_append, List.flatMap_cons, joinWith_cons, List.append_assoc]
    | cons v ts => rw [List.cons_append, List.flatMap_cons, joinWith_cons, List.append_assoc]

theorem exists_of_forall₂_append {α β : Type} {R : α → β → Prop} {xs ys : List α} {bs : List β}
    (h : List.Forall₂ R (xs ++ ys) bs) :
    ∃ cs ds, bs = cs ++ ds ∧ List.Forall₂ R xs cs ∧ List.Forall₂ R ys ds := by
  induction xs generalizing bs with
  | nil => exact ⟨[], bs, rfl, .nil, h⟩
  | cons x xs ih =>
    cases h with
    | cons hx h =>
      obtain ⟨cs, ds, rfl, hcs, hds⟩ := ih h
      exact ⟨_ :: cs, ds, rfl, .cons hx hcs, hds⟩

namespace Json

/-- A form in which one value is left open. -/
inductive Context where
  | here
  | item (before : List Form) (inner : Context) (behind : List Form)
  | member (before : List (List StringUnit × Form)) (key : List StringUnit) (inner : Context)
      (behind : List (List StringUnit × Form))

namespace Context

def fill : Context → Form → Form
  | here, f => f
  | item before inner behind, f => .array (before ++ inner.fill f :: behind)
  | member before key inner behind, f => .object (before ++ (key, inner.fill f) :: behind)

/-- No member that the open value is in is overwritten by a later one with the same key. -/
def Lasts : Context → Prop
  | here => True
  | item _ inner _ => inner.Lasts
  | member _ key inner behind => (∀ m ∈ behind, decode? m.1 ≠ decode? key) ∧ inner.Lasts

/--
What a context makes of the open value, where so many arrays and objects may be nested. All else in it
stands for something.
-/
inductive Denotes : (room : Nat) → Context → (Json → Json) → Prop
  | here {room : Nat} : Denotes room here id
  | item {room : Nat} {before behind : List Form} {inner : Context} {js ks : List Json}
      {g : Json → Json} : List.Forall₂ (Form.Denotes room) before js → Denotes room inner g →
      List.Forall₂ (Form.Denotes room) behind ks →
      Denotes (room + 1) (item before inner behind) fun j => .array (js ++ g j :: ks)
  | member {room : Nat} {before behind : List (List StringUnit × Form)} {key : List StringUnit}
      {inner : Context} {k : Text} {pairs others : List (Text × Json)} {g : Json → Json} :
      List.Forall₂ (Form.DenotesMember room) before pairs → decode? key = some k →
      Denotes room inner g → List.Forall₂ (Form.DenotesMember room) behind others →
      Denotes (room + 1) (member before key inner behind)
        fun j => .object (latest (pairs ++ (k, g j) :: others))

variable {C : Context} {room : Nat} {g : Json → Json} {f : Form} {j : Json}

theorem Denotes.fill (h : C.Denotes room g) (hf : f.Denotes 0 j) :
    (C.fill f).Denotes room (g j) := by
  induction h with
  | here => exact ⟨Nat.le_trans hf.1 (Nat.zero_le _), hf.2⟩
  | item hbefore _ hbehind ih =>
    exact Form.denotes_array_iff.2 ⟨_, List.rel_append hbefore (.cons ih hbehind), rfl⟩
  | member hbefore hkey _ hbehind ih =>
    exact Form.denotes_object_iff.2
      ⟨_, List.rel_append hbefore (.cons ⟨hkey, ih⟩ hbehind), rfl⟩

/-- If a context stands for something when it is filled, then all around the open value does. -/
theorem exists_denotes (h : (C.fill f).Denotes room j) : ∃ g, C.Denotes room g := by
  induction C generalizing room j with
  | here => exact ⟨id, .here⟩
  | item before inner behind ih =>
    cases room with
    | zero => exact absurd h.1 (Nat.not_succ_le_zero _)
    | succ room =>
      obtain ⟨_, hitems, rfl⟩ := Form.denotes_array_iff.1 h
      obtain ⟨js, _, -, hbefore, hrest⟩ := exists_of_forall₂_append hitems
      cases hrest with
      | cons hinner hbehind =>
        obtain ⟨g, hg⟩ := ih hinner
        exact ⟨_, .item hbefore hg hbehind⟩
  | member before key inner behind ih =>
    cases room with
    | zero => exact absurd h.1 (Nat.not_succ_le_zero _)
    | succ room =>
      obtain ⟨_, hmembers, rfl⟩ := Form.denotes_object_iff.1 h
      obtain ⟨pairs, _, -, hbefore, hrest⟩ := exists_of_forall₂_append hmembers
      cases hrest with
      | cons hinner hbehind =>
        obtain ⟨g, hg⟩ := ih hinner.2
        exact ⟨_, .member hbefore hinner.1 hg hbehind⟩

theorem key_ne_of_decode?_ne {behind : List (List StringUnit × Form)} {others : List (Text × Json)}
    {k : Text} (h : List.Forall₂ (Form.DenotesMember room) behind others)
    (hlast : ∀ m ∈ behind, decode? m.1 ≠ some k) : ∀ p ∈ others, p.1 ≠ k := by
  induction h with
  | nil => exact nofun
  | cons hm _ ih =>
    obtain ⟨hfirst, hrest⟩ := List.forall_mem_cons.1 hlast
    exact List.forall_mem_cons.2 ⟨fun hk => hfirst (hm.1.trans (congrArg some hk)), ih hrest⟩

/-- The text around the open value does not depend on what is filled in. -/
theorem Denotes.exists_render (h : C.Denotes room g) (hC : C.Lasts) :
    ∃ front back, ∀ j, render (g j) = front ++ render j ++ back := by
  induction h with
  | here => exact ⟨[], [], fun j => (List.append_nil _).symm⟩
  | @item _ _ _ _ js ks g _ _ _ ih =>
    obtain ⟨front, back, hg⟩ := ih hC
    refine ⟨'[' :: (js.map render).flatMap (· ++ [',']) ++ front,
      back ++ (ks.map render).flatMap ([','] ++ ·) ++ [']'], fun j => ?_⟩
    rw [render_array, List.map_append, List.map_cons, joinWith_append_cons, hg]
    simp only [List.append_assoc, List.cons_append]
  | @member _ _ _ _ _ k pairs others g _ hkey _ hbehind ih =>
    obtain ⟨hlast, hinner⟩ := hC
    rw [hkey] at hlast
    obtain ⟨front, back, hg⟩ := ih hinner
    obtain ⟨before, behind, hlatest⟩ := exists_latest_eq pairs (key_ne_of_decode?_ne hbehind hlast)
    refine ⟨'\x7b' :: (before.map memberText).flatMap (· ++ [',']) ++ (quoted k ++ ':' :: front),
      back ++ (behind.map memberText).flatMap ([','] ++ ·) ++ ['\x7d'], fun j => ?_⟩
    dsimp only
    rw [hlatest, render_object, List.map_append, List.map_cons, joinWith_append_cons, memberText, hg]
    simp only [List.append_assoc, List.cons_append]

end Context

end Json

end RecordSheet
