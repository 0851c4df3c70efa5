import SigVerdict.Signature.Rejection

set_option autoImplicit false

/-! # Sets of reasons

The reasons of a rejection are a set, kept as a list that rises strictly. Two such lists with the
same members are the same list (`eq_of_rising`), so a set of reasons is determined by what is in
it. -/

namespace SigVerdict.Signature

/-- A list in which each text stands in front of all greater ones and none stands twice. -/
def Rising (reasons : List String) : Prop := reasons.Pairwise (· < ·)

theorem mem_insertReason {reason other : String} {reasons : List String} :
    other ∈ insertReason reason reasons ↔ other = reason ∨ other ∈ reasons := by
  induction reasons with
  | nil => simp [insertReason]
  | cons first rest ih =>
      rw [insertReason]
      split
      · next he =>
          subst he
          simp
      · split
        · exact List.mem_cons
        · rw [List.mem_cons, ih, List.mem_cons]
          exact or_left_comm

theorem insertReason_rising {reason : String} {reasons : List String} (h : Rising reasons) :
    Rising (insertReason reason reasons) := by
  induction reasons with
  | nil => exact List.pairwise_singleton _ _
  | cons first rest ih =>
      obtain ⟨hfirst, hrest⟩ := List.pairwise_cons.1 h
      rw [insertReason]
      split
      · exact h
      · next hne =>
          split
          · next hlt =>
              refine List.pairwise_cons.2 ⟨fun other hother => ?_, h⟩
              rcases List.mem_cons.1 hother with rfl | hother
              · exact hlt
              · exact String.lt_trans hlt (hfirst other hother)
          · next hnlt =>
              have hgt : first < reason := by
                rw [← String.not_le]
                exact fun hle => hne (String.le_antisymm hle (String.not_lt.1 hnlt))
              refine List.pairwise_cons.2 ⟨fun other hother => ?_, ih hrest⟩
              rcases mem_insertReason.1 hother with rfl | hother
              · exact hgt
              · exact hfirst other hother

@[simp] theorem mem_reasonSet {reason : String} {reasons : List String} :
    reason ∈ reasonSet reasons ↔ reason ∈ reasons := by
  induction reasons with
  | nil => rfl
  | cons first rest ih =>
      rw [reasonSet, List.foldr_cons, mem_insertReason, List.mem_cons]
      exact or_congr_right ih

theorem reasonSet_rising (reasons : List String) : Rising (reasonSet reasons) := by
  induction reasons with
  | nil => exact List.Pairwise.nil
  | cons first rest ih => exact insertReason_rising ih

/-- A set of reasons is determined by its members. -/
theorem eq_of_rising {as bs : List String} (has : Rising as) (hbs : Rising bs)
    (h : ∀ reason, reason ∈ as ↔ reason ∈ bs) : as = bs := by
  have hne : ∀ {a b : String}, a < b → a ≠ b := fun hlt he => String.lt_irrefl _ (he ▸ hlt)
  have hperm : as.Perm bs := (List.perm_ext_iff_of_nodup (has.imp hne) (hbs.imp hne)).2 h
  refine hperm.eq_of_pairwise (fun a b _ _ hab hba => ?_) has hbs
  exact absurd (String.lt_trans hab hba) (String.lt_irrefl a)

end SigVerdict.Signature
