import Mathlib.Data.List.Nodup
import Mathlib.Data.List.Pairwise

/-!
# Each key once, at its first occurrence

Lists of keys are made by walking over places in order, noting the key that each place has, and
keeping every key the first time. `FirstEntry` says of a place that it is the first one of its key,
in the order in which the places are walked:

> `pairwise_eraseDups`: the kept keys are in the order of their first places.
-/

namespace LaneChart

variable {α κ : Type} {key : α → κ} {before : α → α → Prop} {l : List α} {k : κ} {a b : α}

/-- The first entry of a key in a list that an order goes along. -/
structure FirstEntry (key : α → κ) (before : α → α → Prop) (l : List α) (k : κ) (a : α) : Prop where
  mem : a ∈ l
  key_eq : key a = k
  first : ∀ b ∈ l, key b = k → a = b ∨ before a b

theorem FirstEntry.of_filter {p : κ → Bool}
    (h : FirstEntry key before (l.filter fun b => p (key b)) k a) :
    FirstEntry key before l k a := by
  obtain ⟨hmem, htest⟩ := List.mem_filter.1 h.mem
  refine ⟨hmem, h.key_eq, ?_⟩
  intro b hb hkey
  refine h.first b (List.mem_filter.2 ⟨hb, ?_⟩) hkey
  rw [hkey, ← h.key_eq]
  exact htest

theorem FirstEntry.cons (h : FirstEntry key before l k a) (hb : key b ≠ k) :
    FirstEntry key before (b :: l) k a := by
  refine ⟨List.mem_cons_of_mem _ h.mem, h.key_eq, ?_⟩
  intro c hc hkey
  rcases List.mem_cons.1 hc with rfl | hc
  · exact absurd hkey hb
  · exact h.first c hc hkey

/-- In an ordered list the head is the first entry of its key. -/
theorem firstEntry_head (h : (a :: l).Pairwise before) :
    FirstEntry key before (a :: l) (key a) a := by
  refine ⟨List.mem_cons_self .., rfl, ?_⟩
  intro b hb _
  rcases List.mem_cons.1 hb with rfl | hb
  · exact .inl rfl
  · exact .inr ((List.pairwise_cons.1 h).1 b hb)

theorem exists_firstEntry (h : l.Pairwise before) (hk : k ∈ l.map key) :
    ∃ a, FirstEntry key before l k a := by
  induction l with
  | nil => exact absurd hk List.not_mem_nil
  | cons b l ih =>
    by_cases hb : key b = k
    · exact ⟨b, hb ▸ firstEntry_head h⟩
    · obtain ⟨a, ha⟩ := ih (List.pairwise_cons.1 h).2
        ((List.mem_cons.1 hk).resolve_left fun he => hb he.symm)
      exact ⟨a, ha.cons hb⟩

/-- **The keys of an ordered list, each kept once**, are in the order of their first entries. -/
theorem pairwise_eraseDups [BEq κ] [LawfulBEq κ] (key : α → κ) : ∀ (l : List α), l.Pairwise before →
    (l.map key).eraseDups.Pairwise fun j k => ∃ a b, FirstEntry key before l j a ∧
      FirstEntry key before l k b ∧ before a b
  | [], _ => List.Pairwise.nil
  | a :: l, h => by
    obtain ⟨hhead, hrest⟩ := List.pairwise_cons.1 h
    have hothers : (l.map key).filter (fun k => !k == key a) =
        (l.filter fun b => !key b == key a).map key := List.filter_map
    rw [List.map_cons, List.eraseDups_cons, List.pairwise_cons]
    constructor
    · intro k hk
      obtain ⟨hmem, htest⟩ := List.mem_filter.1 (List.mem_eraseDups.1 hk)
      have hne : key a ≠ k := by
        rintro rfl
        simp at htest
      obtain ⟨b, hb⟩ := exists_firstEntry hrest hmem
      exact ⟨a, b, firstEntry_head h, hb.cons hne, hhead b hb.mem⟩
    · -- the other keys are those of the entries behind the head that do not repeat its key
      rw [hothers]
      refine (pairwise_eraseDups key _ (hrest.filter _)).imp ?_
      rintro j k ⟨b, c, hb, hc, hbc⟩
      have hlift : ∀ {i e}, FirstEntry key before (l.filter fun b => !key b == key a) i e →
          FirstEntry key before (a :: l) i e := by
        intro i e he
        have htest := (List.mem_filter.1 he.mem).2
        refine (FirstEntry.of_filter (p := fun k => !k == key a) he).cons ?_
        rintro rfl
        simp [he.key_eq] at htest
      exact ⟨b, c, hlift hb, hlift hc, hbc⟩
termination_by l => l.length
decreasing_by exact Nat.lt_succ_of_le (List.length_filter_le _ _)

end LaneChart
