import LaneChart.Proofs.Crossing.Budget

/-!
# A search that ends by itself has settled

A search ends in one of three ways: no crossing is left, a pass kept nothing, or a budget is
used up. The first two leave nothing to be found. Where no crossing is left, none is taken away;
and a pass that keeps nothing has tried all its proposals from one and the same state, so none
of them would have helped. That is what `Settled` says of positions, and it is the same as being
left alone by every search (`settled_iff`):

> `refine_settles`: a search that has used up neither budget leaves positions behind that are
> settled, and another search of them, with any budget, changes nothing.
-/

namespace LaneChart.Crossing

/-- Positions are settled when none of the flips that are proposed for them lowers the number of
crossings. -/
def Settled (p : Placement) (lanes : List Lane) : Prop :=
  ∀ f ∈ proposals p lanes, ¬ count (p.insert f.sector f.target) lanes < count p lanes

namespace Progress

variable {lanes : List Lane} {m : Nat} {s : Progress}

/-! ## One pass -/

/-- A flip does not help a search. -/
def Useless (lanes : List Lane) (s : Progress) (f : Flip) : Prop :=
  ¬ count (s.positions.insert f.sector f.target) lanes < s.crossings

theorem attempt_of_useless {f : Flip} (h : s.Useless lanes f) : s.attempt lanes m f = s := by
  rcases attempt_cases lanes m s f with heq | ⟨-, hfewer, -⟩
  · exact heq
  · exact absurd hfewer h

theorem foldl_attempt_of_useless {flips : List Flip} (h : ∀ f ∈ flips, s.Useless lanes f) :
    flips.foldl (Progress.attempt lanes m) s = s := by
  induction flips with
  | nil => rfl
  | cons f rest ih =>
    obtain ⟨hf, hrest⟩ := List.forall_mem_cons.1 h
    rw [List.foldl_cons, attempt_of_useless hf]
    exact ih hrest

/-- A flip that helps is kept, if there is room for it. -/
theorem length_attempt_of_fewer {f : Flip} (hroom : s.flips.length < m)
    (hfewer : count (s.positions.insert f.sector f.target) lanes < s.crossings) :
    (s.attempt lanes m f).flips.length = s.flips.length + 1 := by
  have hopen : ¬ m ≤ s.flips.length := Nat.not_le.2 hroom
  unfold Progress.attempt
  simp only
  rw [if_neg hopen, if_pos hfewer]
  exact List.length_append

/-- Attempts that keep nothing, with room for more, were all useless. -/
theorem useless_of_foldl_attempt {flips : List Flip} (hroom : s.flips.length < m)
    (h : (flips.foldl (Progress.attempt lanes m) s).flips.length = s.flips.length) :
    ∀ f ∈ flips, s.Useless lanes f := by
  induction flips with
  | nil =>
    intro f hf
    exact absurd hf List.not_mem_nil
  | cons g rest ih =>
    rw [List.foldl_cons] at h
    have hg : s.Useless lanes g := by
      intro hfewer
      have hlength := length_attempt_of_fewer hroom hfewer
      have hmore : ∃ kept, kept.Sublist rest ∧
          (rest.foldl (Progress.attempt lanes m) (s.attempt lanes m g)).flips =
            (s.attempt lanes m g).flips ++ kept := flips_foldl_attempt rest _
      obtain ⟨kept, -, hflips⟩ := hmore
      rw [hflips, List.length_append] at h
      omega
    rw [attempt_of_useless hg] at h
    exact List.forall_mem_cons.2 ⟨hg, ih h⟩

/-! ## All passes -/

/-- A search is at rest: no flip that is proposed now helps it. -/
def AtRest (lanes : List Lane) (s : Progress) : Prop :=
  ∀ f ∈ proposals s.positions lanes, s.Useless lanes f

theorem atRest_of_crossings (h : s.crossings = 0) : s.AtRest lanes := by
  intro f _ hfewer
  rw [h] at hfewer
  exact Nat.not_lt_zero _ hfewer

theorem pass_of_atRest (h : s.AtRest lanes) : s.pass lanes m = s := foldl_attempt_of_useless h

theorem atRest_of_pass (hroom : s.flips.length < m)
    (h : (s.pass lanes m).flips.length = s.flips.length) : s.AtRest lanes :=
  useless_of_foldl_attempt hroom h

/-- A search at rest stays where it is, whatever it may spend. -/
theorem passes_of_atRest (h : s.AtRest lanes) (k done : Nat) :
    (Crossing.passes lanes m k s done).1 = s := by
  cases k with
  | zero => rfl
  | succ k =>
    by_cases hover : m ≤ s.flips.length ∨ s.crossings = 0
    · rw [passes_of_over hover]
    · rw [not_or, Nat.not_le] at hover
      rw [passes_of_open hover.1 hover.2, pass_of_atRest h, if_pos rfl]

/-- **A search that stops early is at rest**: with flips and passes to spare, it was not a
budget that stopped it. -/
theorem atRest_passes (k : Nat) (s : Progress) (done : Nat)
    (hflips : (Crossing.passes lanes m k s done).1.flips.length < m)
    (hpasses : (Crossing.passes lanes m k s done).2 < done + k) :
    (Crossing.passes lanes m k s done).1.AtRest lanes := by
  induction k generalizing s done with
  | zero =>
    have hdone : done < done + 0 := hpasses
    omega
  | succ k ih =>
    by_cases hover : m ≤ s.flips.length ∨ s.crossings = 0
    · rw [passes_of_over hover] at hflips ⊢
      rcases hover with hfull | hcrossings
      · exact absurd hfull (Nat.not_le.2 hflips)
      · exact atRest_of_crossings hcrossings
    rw [not_or, Nat.not_le] at hover
    rw [passes_of_open hover.1 hover.2] at hflips hpasses ⊢
    by_cases hkept : (s.pass lanes m).flips.length = s.flips.length
    · -- the last pass kept nothing, so it ended where it began
      have hrest := atRest_of_pass hover.1 hkept
      rw [if_pos hkept, pass_of_atRest hrest]
      exact hrest
    · rw [if_neg hkept] at hflips hpasses ⊢
      have hleft : done + (k + 1) = done + 1 + k := by omega
      rw [hleft] at hpasses
      exact ih _ _ hflips hpasses

theorem Sound.atRest_iff {p : Placement} (h : s.Sound p lanes) :
    s.AtRest lanes ↔ Settled s.positions lanes := by
  unfold AtRest Useless Settled
  rw [h.crossings]

end Progress

/-! ## Searches -/

/-- A search leaves settled positions as they are. -/
theorem refine_of_settled {p : Placement} {lanes : List Lane} (h : Settled p lanes) (b : Budget) :
    (refine p lanes b).flips = [] ∧ (refine p lanes b).positions = p := by
  have hrest : Progress.AtRest lanes ⟨p, count p lanes, []⟩ :=
    (Progress.sound_start p lanes).atRest_iff.2 h
  have hstay := Progress.passes_of_atRest (m := b.maxFlips.toNat) hrest b.maxPasses.toNat 0
  refine ⟨?_, ?_⟩
  · exact congrArg Progress.flips hstay
  · exact congrArg Progress.positions hstay

theorem settled_refine {p : Placement} {lanes : List Lane} {b : Budget}
    (hflips : (refine p lanes b).report.flips < b.maxFlips)
    (hpasses : (refine p lanes b).report.passes < b.maxPasses) :
    Settled (refine p lanes b).positions lanes := by
  let found := passes lanes b.maxFlips.toNat b.maxPasses.toNat ⟨p, count p lanes, []⟩ 0
  have hsound : found.1.Sound p lanes := (Progress.sound_start p lanes).passes _ _
  have hfound : found.1.flips.length < b.maxFlips.toNat := by
    obtain ⟨hexact, -, -⟩ := flips_report p lanes b
    have hlt := UInt32.lt_iff_toNat_lt.1 hflips
    rw [hexact] at hlt
    exact hlt
  have hmade : found.2 < 0 + b.maxPasses.toNat := by
    have hallowed : found.2 ≤ 0 + b.maxPasses.toNat :=
      (Progress.passes_le b.maxPasses.toNat (Nat.zero_le _)).1
    have hbound : found.2 < 2 ^ 32 := by
      have hsize := b.maxPasses.toNat_lt
      omega
    have hexact : (refine p lanes b).report.passes.toNat = found.2 :=
      UInt32.toNat_ofNat_of_lt' hbound
    have hlt := UInt32.lt_iff_toNat_lt.1 hpasses
    omega
  exact hsound.atRest_iff.1 (Progress.atRest_passes _ _ _ hfound hmade)

/-- **Settled positions** are those that no search changes. -/
theorem settled_iff (p : Placement) (lanes : List Lane) :
    Settled p lanes ↔ ∀ b, (refine p lanes b).flips = [] := by
  constructor
  · intro h b
    exact (refine_of_settled h b).1
  · intro h
    -- a search that could make one flip in two passes is stopped by neither
    have hnone : (refine p lanes ⟨2, 1⟩).flips = [] := h ⟨2, 1⟩
    obtain ⟨hpositions, -⟩ := refine_sound p lanes ⟨2, 1⟩
    obtain ⟨hexact, -, -⟩ := flips_report p lanes ⟨2, 1⟩
    obtain ⟨-, hkept, -⟩ := passes_report p lanes ⟨2, 1⟩
    rw [hnone] at hpositions hexact hkept
    have hsettled : Settled (refine p lanes ⟨2, 1⟩).positions lanes := by
      refine settled_refine (UInt32.lt_iff_toNat_lt.2 ?_) (UInt32.lt_iff_toNat_lt.2 ?_)
      · rw [hexact]
        decide
      · exact Nat.lt_of_le_of_lt hkept (by decide)
    rw [hpositions] at hsettled
    exact hsettled

/-- **A search that ends by itself has settled.** When it reports fewer flips and fewer passes than
it was allowed, no flip that is proposed for its positions lowers the number of crossings, and
another search of them, with any budget, keeps no flip and leaves them as they are. -/
theorem refine_settles (p : Placement) (lanes : List Lane) (b : Budget)
    (hflips : (refine p lanes b).report.flips < b.maxFlips)
    (hpasses : (refine p lanes b).report.passes < b.maxPasses) :
    let q := (refine p lanes b).positions
    (∀ f ∈ proposals q lanes, ¬ count (q.insert f.sector f.target) lanes < count q lanes) ∧
    ∀ b', (refine q lanes b').flips = [] ∧ (refine q lanes b').positions = q := by
  intro q
  have hsettled : Settled q lanes := settled_refine hflips hpasses
  exact ⟨hsettled, refine_of_settled hsettled⟩

/-! ## A chain that stays tangled -/

/-- Five sectors on a chain, drawn with two crossings. -/
def zigzag : Placement := IdMap.ofList
  [(1, ⟨8, 0⟩), (2, ⟨5, 0⟩), (3, ⟨2, 8⟩), (4, ⟨1, 8⟩), (5, ⟨8, 3⟩)]

/-- The lanes of the chain. -/
def zigzagLanes : List Lane := [⟨1, 3⟩, ⟨2, 3⟩, ⟨2, 4⟩, ⟨4, 5⟩]

/-- A chain can be drawn without a crossing, but here the search stops at one, with budget to spare.
Two flips are still proposed, and a longer search keeps neither. -/
theorem zigzag_settles :
    (refine zigzag zigzagLanes {}).report = ⟨2, 1, 1, 2⟩ ∧
    (proposals (refine zigzag zigzagLanes {}).positions zigzagLanes).length = 2 ∧
    (refine (refine zigzag zigzagLanes {}).positions zigzagLanes ⟨100, 100⟩).flips = [] := by
  have hreport : (refine zigzag zigzagLanes {}).report = ⟨2, 1, 1, 2⟩ := by decide +kernel
  obtain ⟨-, hagain⟩ := refine_settles zigzag zigzagLanes {} (by rw [hreport]; decide)
    (by rw [hreport]; decide)
  exact ⟨hreport, by decide +kernel, (hagain ⟨100, 100⟩).1⟩

end LaneChart.Crossing
