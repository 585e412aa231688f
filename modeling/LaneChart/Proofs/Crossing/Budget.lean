import LaneChart.Proofs.Crossing.Report

/-!
# Budgets only cut a search short

A budget decides when a search ends, never what it does until then. Two searches of the
same positions, one with less to spend than the other, keep the same flips as long as the
first one goes on:

> `refine_of_less`: with less to spend a search keeps the first flips of those it keeps with
> more; where only the flips are limited further, it keeps exactly as many of them as it may. So
> more to spend never leaves more crossings.

The proposals of a pass depend on everything that was kept before it, so the two searches can only
be compared while they are in the same state. `Cut` is what that leaves to carry along: they are in
the same state, or the first has used up its flips, all of them flips of the second. In the second
case whatever the longer search goes on to do, the other stands still.
-/

namespace LaneChart.Crossing

namespace Progress

variable {lanes : List Lane} {m n : Nat} {s s' : Progress}

/-! ## Searches that stand still -/

theorem attempt_of_full (h : m ≤ s.flips.length) (f : Flip) : s.attempt lanes m f = s := if_pos h

/-- A search ends without a pass when its flips are used up or no crossing is left. -/
theorem passes_of_over (h : m ≤ s.flips.length ∨ s.crossings = 0) (k done : Nat) :
    Crossing.passes lanes m k s done = (s, done) := by
  cases k with
  | zero => rfl
  | succ k =>
    have hover : (decide (m ≤ s.flips.length) || s.crossings == 0) = true := by
      simpa using h
    exact if_pos hover

/-- Otherwise it makes a pass, and goes on from there if that kept a flip. -/
theorem passes_of_open (hroom : s.flips.length < m) (hcrossings : s.crossings ≠ 0) (k done : Nat) :
    Crossing.passes lanes m (k + 1) s done =
      if (s.pass lanes m).flips.length = s.flips.length then (s.pass lanes m, done + 1)
      else Crossing.passes lanes m k (s.pass lanes m) (done + 1) := by
  have hopen : ¬ (decide (m ≤ s.flips.length) || s.crossings == 0) = true := by
    simp only [Bool.or_eq_true, decide_eq_true_eq, beq_iff_eq, not_or, Nat.not_le]
    exact ⟨hroom, hcrossings⟩
  exact if_neg hopen

/-! ## Searches that go on -/

theorem flips_prefix_attempt (lanes : List Lane) (m : Nat) (s : Progress) (f : Flip) :
    s.flips <+: (s.attempt lanes m f).flips := by
  rcases attempt_cases lanes m s f with heq | ⟨-, -, heq⟩
  · simp only [heq, List.prefix_rfl]
  · rw [heq]
    exact List.prefix_append _ _

theorem flips_prefix_pass (lanes : List Lane) (m : Nat) (s : Progress) :
    s.flips <+: (s.pass lanes m).flips := by
  obtain ⟨kept, -, hflips⟩ := s.flips_pass lanes m
  rw [hflips]
  exact List.prefix_append _ _

theorem flips_prefix_passes (lanes : List Lane) (m : Nat) (s : Progress) (k done : Nat) :
    s.flips <+: (Crossing.passes lanes m k s done).1.flips :=
  passes_induction (P := fun t _ => s.flips <+: t.flips)
    (fun t _ ht => ht.trans (t.flips_prefix_pass lanes m)) k (List.prefix_refl _)

/-! ## Two searches side by side -/

/-- A search is cut at some number of flips, beside another one: it is in the same state, or it has
that many flips, which the other one has first. -/
def Cut (m : Nat) (s s' : Progress) : Prop :=
  s = s' ∨ (m ≤ s.flips.length ∧ s.flips <+: s'.flips)

theorem Cut.flips_prefix (h : s.Cut m s') : s.flips <+: s'.flips := by
  rcases h with rfl | ⟨-, hfirst⟩
  · exact List.prefix_refl _
  · exact hfirst

theorem Cut.attempt (h : s.Cut m s') (hmn : m ≤ n) (f : Flip) :
    (s.attempt lanes m f).Cut m (s'.attempt lanes n f) := by
  by_cases hfull : m ≤ s.flips.length
  · rw [attempt_of_full hfull]
    exact .inr ⟨hfull, h.flips_prefix.trans (flips_prefix_attempt lanes n s' f)⟩
  · rcases h with rfl | ⟨hfull', -⟩
    · have hroom : ¬ n ≤ s.flips.length := by omega
      left
      unfold Progress.attempt
      rw [if_neg hfull, if_neg hroom]
    · exact absurd hfull' hfull

theorem Cut.foldl_attempt (h : s.Cut m s') (hmn : m ≤ n) (flips : List Flip) :
    (flips.foldl (Progress.attempt lanes m) s).Cut m
      (flips.foldl (Progress.attempt lanes n) s') := by
  induction flips generalizing s s' with
  | nil => exact h
  | cons f rest ih => exact ih (h.attempt hmn f)

/-- Passes from the same state have the same proposals. -/
theorem cut_pass (lanes : List Lane) (hmn : m ≤ n) (s : Progress) :
    (s.pass lanes m).Cut m (s.pass lanes n) :=
  Cut.foldl_attempt (.inl rfl) hmn _

/-- **Two searches with the same passes**, from the same state: the one with fewer flips is cut. -/
theorem cut_passes (lanes : List Lane) (hmn : m ≤ n) (k : Nat) (s : Progress) (done : Nat) :
    (Crossing.passes lanes m k s done).1.Cut m (Crossing.passes lanes n k s done).1 := by
  induction k generalizing s done with
  | zero => exact .inl rfl
  | succ k ih =>
    by_cases hfull : m ≤ s.flips.length
    · rw [passes_of_over (.inl hfull)]
      exact .inr ⟨hfull, s.flips_prefix_passes lanes n (k + 1) done⟩
    by_cases hcrossings : s.crossings = 0
    · rw [passes_of_over (.inr hcrossings), passes_of_over (.inr hcrossings)]
      exact .inl rfl
    have hroom : s.flips.length < m := by omega
    rw [passes_of_open hroom hcrossings, passes_of_open (by omega) hcrossings]
    rcases cut_pass lanes hmn s with hsame | ⟨hfull', hfirst⟩
    · rw [hsame]
      split
      · exact .inl rfl
      · exact ih _ _
    · -- the pass used up the lesser budget, so it kept a flip under both
      have hlength := hfirst.length_le
      rw [if_neg (by omega), if_neg (by omega), passes_of_over (.inl hfull')]
      exact .inr ⟨hfull', hfirst.trans (flips_prefix_passes lanes n _ k _)⟩

/-- **Two searches with the same flips to spend**, from the same state: the one with fewer
passes keeps the first flips of the other. -/
theorem flips_prefix_passes_of_le (lanes : List Lane) (m : Nat) {k l : Nat} (hkl : k ≤ l)
    (s : Progress) (done : Nat) :
    (Crossing.passes lanes m k s done).1.flips <+: (Crossing.passes lanes m l s done).1.flips := by
  induction k generalizing l s done with
  | zero => exact s.flips_prefix_passes lanes m l done
  | succ k ih =>
    obtain ⟨l, rfl⟩ : ∃ l', l = l' + 1 := ⟨l - 1, by omega⟩
    by_cases hover : m ≤ s.flips.length ∨ s.crossings = 0
    · simp only [passes_of_over hover, List.prefix_rfl]
    · rw [not_or, Nat.not_le] at hover
      rw [passes_of_open hover.1 hover.2, passes_of_open hover.1 hover.2]
      split
      · exact List.prefix_refl _
      · exact ih (by omega) _ _

end Progress

/-! ## Budgets -/

/-- Every flip takes at least one crossing away. -/
theorem count_replay_le {lanes : List Lane} {p : Placement} {flips : List Flip}
    (h : Replays lanes p flips) : flips.length + count (replay p flips) lanes ≤ count p lanes := by
  induction flips generalizing p with
  | nil => exact Nat.le_of_eq (Nat.zero_add _)
  | cons f rest ih =>
    have hrest := ih h.2
    have hfewer := h.1.fewer
    have hreplay : replay p (f :: rest) = replay (p.insert f.sector f.target) rest := rfl
    rw [hreplay, List.length_cons]
    omega

theorem replays_of_append {lanes : List Lane} {p : Placement} {flips more : List Flip}
    (h : Replays lanes p (flips ++ more)) : Replays lanes (replay p flips) more := by
  induction flips generalizing p with
  | nil => exact h
  | cons f rest ih => exact ih h.2

/-- A search that goes on from where another one stopped leaves no more crossings. -/
theorem after_le_of_flips_prefix {p : Placement} {lanes : List Lane} {b b' : Budget}
    (h : (refine p lanes b).flips <+: (refine p lanes b').flips) :
    (refine p lanes b').report.after ≤ (refine p lanes b).report.after := by
  obtain ⟨hpositions, -⟩ := refine_sound p lanes b
  obtain ⟨hpositions', hreplays'⟩ := refine_sound p lanes b'
  obtain ⟨more, hmore⟩ := h
  rw [← hmore] at hpositions' hreplays'
  have hreplay : replay p ((refine p lanes b).flips ++ more) =
      replay (replay p (refine p lanes b).flips) more := List.foldl_append
  have hcount := count_replay_le (replays_of_append hreplays')
  rw [← hreplay, ← hpositions', ← hpositions] at hcount
  rw [after_report, after_report]
  omega

theorem flips_prefix_refine {b b' : Budget} (p : Placement) (lanes : List Lane)
    (hpasses : b.maxPasses ≤ b'.maxPasses) (hflips : b.maxFlips ≤ b'.maxFlips) :
    (refine p lanes b).flips <+: (refine p lanes b').flips := by
  have hm : b.maxFlips.toNat ≤ b'.maxFlips.toNat := UInt32.le_iff_toNat_le.1 hflips
  have hk : b.maxPasses.toNat ≤ b'.maxPasses.toNat := UInt32.le_iff_toNat_le.1 hpasses
  have hcut := Progress.cut_passes lanes hm b.maxPasses.toNat ⟨p, count p lanes, []⟩ 0
  exact hcut.flips_prefix.trans (Progress.flips_prefix_passes_of_le lanes _ hk _ 0)

/-- With as many passes, a search keeps as many of the flips as it may. -/
theorem flips_refine_eq_take {b b' : Budget} (p : Placement) (lanes : List Lane)
    (hpasses : b.maxPasses = b'.maxPasses) (hflips : b.maxFlips ≤ b'.maxFlips) :
    (refine p lanes b).flips = (refine p lanes b').flips.take b.maxFlips.toNat := by
  obtain ⟨-, hroom, -⟩ := flips_report p lanes b
  have hm : b.maxFlips.toNat ≤ b'.maxFlips.toNat := UInt32.le_iff_toNat_le.1 hflips
  have hcut := Progress.cut_passes lanes hm b.maxPasses.toNat ⟨p, count p lanes, []⟩ 0
  rcases hcut with hsame | ⟨hfull, -⟩
  · -- neither search was stopped by the lesser number of flips
    have hequal : (refine p lanes b).flips = (refine p lanes b').flips := by
      show (passes lanes b.maxFlips.toNat b.maxPasses.toNat ⟨p, count p lanes, []⟩ 0).1.flips =
        (passes lanes b'.maxFlips.toNat b'.maxPasses.toNat ⟨p, count p lanes, []⟩ 0).1.flips
      rw [hsame, hpasses]
    rw [← hequal, List.take_of_length_le hroom]
  · have hlength : (refine p lanes b).flips.length = b.maxFlips.toNat :=
      Nat.le_antisymm hroom hfull
    have hfirst := flips_prefix_refine p lanes (by rw [hpasses]; exact UInt32.le_refl _) hflips
    rw [← hlength]
    exact List.prefix_iff_eq_take.1 hfirst

/-- **Budgets only cut a search short.** With less to spend a search keeps the first flips of those
it keeps with more, and with as many passes exactly as many of them as it may. So it never leaves
fewer crossings than with more to spend. -/
theorem refine_of_less (p : Placement) (lanes : List Lane) (b b' : Budget)
    (hpasses : b.maxPasses ≤ b'.maxPasses) (hflips : b.maxFlips ≤ b'.maxFlips) :
    (refine p lanes b).flips <+: (refine p lanes b').flips ∧
    (b.maxPasses = b'.maxPasses →
      (refine p lanes b).flips = (refine p lanes b').flips.take b.maxFlips.toNat) ∧
    (refine p lanes b').report.after ≤ (refine p lanes b).report.after := by
  have hfirst := flips_prefix_refine p lanes hpasses hflips
  refine ⟨hfirst, ?_, after_le_of_flips_prefix hfirst⟩
  intro hsame
  exact flips_refine_eq_take p lanes hsame hflips

/-! ## Two passes -/

/-- Five sectors on a tangled chain. -/
def chain : Placement := IdMap.ofList
  [(1, ⟨2, 6⟩), (2, ⟨6, 3⟩), (3, ⟨1, 3⟩), (4, ⟨4, 0⟩), (5, ⟨0, 8⟩)]

/-- The lanes of the chain. Two of its sectors have to move, and the second one is
proposed only when the first has moved. -/
def chainLanes : List Lane := [⟨2, 3⟩, ⟨3, 5⟩, ⟨1, 4⟩, ⟨4, 5⟩]

/-- One pass keeps the first of the two flips, and so does a budget of one flip. -/
theorem chain_of_less :
    (refine chain chainLanes {}).flips.map (·.sector) = [3, 5] ∧
    (refine chain chainLanes ⟨1, 10⟩).flips <+: (refine chain chainLanes {}).flips ∧
    (refine chain chainLanes ⟨3, 1⟩).flips = (refine chain chainLanes {}).flips.take 1 ∧
    (refine chain chainLanes {}).report.after ≤ (refine chain chainLanes ⟨1, 10⟩).report.after ∧
    (refine chain chainLanes ⟨1, 10⟩).report.after = 1 := by
  obtain ⟨hfirst, -, hafter⟩ :=
    refine_of_less chain chainLanes ⟨1, 10⟩ {} (by decide) (by decide)
  obtain ⟨-, htake, -⟩ := refine_of_less chain chainLanes ⟨3, 1⟩ {} (by decide) (by decide)
  exact ⟨by decide +kernel, hfirst, htake rfl, hafter, by decide +kernel⟩

end LaneChart.Crossing
