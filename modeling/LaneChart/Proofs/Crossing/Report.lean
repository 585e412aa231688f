import LaneChart.Proofs.Crossing.Replay

/-!
# What a search reports

`LaneChart.Proofs.Crossing.Replay` follows the flips of a search one by one; here they are counted.
A flip that is kept pays for itself: it takes at least one crossing away, so the flips kept and the
crossings left are together never more than the crossings at the start (`Thrifty`). And a pass
proposes a sector once at most, so no sector is flipped more often than there were passes.

Passes are counted from the other side too. Every pass but the last has kept a flip, since a pass
that keeps none is the last one:

> `refine_accounted`: the flips of a search lead from its start to its positions, each an
> improvement where it is made, and the report says how many there are, and how many
> crossings and passes.
-/

namespace LaneChart.Crossing

namespace Progress

variable {lanes : List Lane} {maxFlips before : Nat} {s : Progress}

/-! ## One pass -/

/-- A search is thrifty: its flips fit the budget, and each was paid for with a crossing. -/
structure Thrifty (maxFlips before : Nat) (s : Progress) : Prop where
  room : s.flips.length ≤ maxFlips
  paid : s.flips.length + s.crossings ≤ before

theorem Thrifty.attempt (h : s.Thrifty maxFlips before) (f : Flip) :
    (s.attempt lanes maxFlips f).Thrifty maxFlips before := by
  rcases attempt_cases lanes maxFlips s f with heq | ⟨hroom, hfewer, heq⟩
  · rw [heq]
    exact h
  · have hlength : (s.flips ++ [f]).length = s.flips.length + 1 := List.length_append
    have hpaid := h.paid
    -- one flip more, and at least one crossing less
    rw [heq]
    refine ⟨?_, ?_⟩
    · show (s.flips ++ [f]).length ≤ maxFlips
      omega
    · show (s.flips ++ [f]).length + count (s.positions.insert f.sector f.target) lanes ≤ before
      omega

theorem Thrifty.pass (h : s.Thrifty maxFlips before) :
    (s.pass lanes maxFlips).Thrifty maxFlips before :=
  List.foldlRecOn _ _ h fun _ h f _ => h.attempt f

theorem thrifty_start (maxFlips : Nat) (p : Placement) (lanes : List Lane) :
    Thrifty maxFlips (count p lanes) ⟨p, count p lanes, []⟩ :=
  ⟨Nat.zero_le _, Nat.le_of_eq (Nat.zero_add _)⟩

/-- Attempts keep some of the flips that they are given, in order. -/
theorem flips_foldl_attempt (flips : List Flip) (s : Progress) :
    ∃ kept, kept.Sublist flips ∧
      (flips.foldl (Progress.attempt lanes maxFlips) s).flips = s.flips ++ kept := by
  induction flips generalizing s with
  | nil => exact ⟨[], List.Sublist.refl _, (List.append_nil _).symm⟩
  | cons f rest ih =>
    obtain ⟨kept, hsub, hflips⟩ := ih (s.attempt lanes maxFlips f)
    rw [List.foldl_cons, hflips]
    rcases attempt_cases lanes maxFlips s f with heq | ⟨-, -, heq⟩
    · exact ⟨kept, hsub.cons f, by rw [heq]⟩
    · refine ⟨f :: kept, hsub.cons_cons f, ?_⟩
      rw [heq]
      exact List.append_assoc s.flips [f] kept

theorem flips_pass (lanes : List Lane) (maxFlips : Nat) (s : Progress) :
    ∃ kept, kept.Sublist (proposals s.positions lanes) ∧
      (s.pass lanes maxFlips).flips = s.flips ++ kept :=
  flips_foldl_attempt _ s

/-- A pass flips every sector once at most. -/
theorem count_flips_pass (lanes : List Lane) (maxFlips : Nat) (s : Progress) (id : SectorId) :
    ((s.pass lanes maxFlips).flips.map (·.sector)).count id ≤
      (s.flips.map (·.sector)).count id + 1 := by
  obtain ⟨kept, hsub, hflips⟩ := s.flips_pass lanes maxFlips
  have hnodup : (kept.map (·.sector)).Nodup :=
    (nodup_firstOfEach _ _).sublist (hsub.map _)
  have hkept : (kept.map (·.sector)).count id ≤ 1 := List.nodup_iff_count.1 hnodup id
  rw [hflips, List.map_append, List.count_append]
  omega

/-! ## All passes -/

theorem Thrifty.passes (h : s.Thrifty maxFlips before) (n done : Nat) :
    (Crossing.passes lanes maxFlips n s done).1.Thrifty maxFlips before :=
  passes_induction (P := fun s _ => s.Thrifty maxFlips before) (fun _ _ h => h.pass) n h

theorem count_flips_passes (n : Nat) {done : Nat} {id : SectorId}
    (h : (s.flips.map (·.sector)).count id ≤ done) :
    ((Crossing.passes lanes maxFlips n s done).1.flips.map (·.sector)).count id ≤
      (Crossing.passes lanes maxFlips n s done).2 := by
  refine passes_induction (P := fun s done => (s.flips.map (·.sector)).count id ≤ done) ?_ n h
  intro s done hs
  have hpass := s.count_flips_pass lanes maxFlips id
  omega

/-- The passes are at most as many as allowed, and at most one of them kept no flip. -/
theorem passes_le (n : Nat) {done : Nat} (h : done ≤ s.flips.length) :
    (Crossing.passes lanes maxFlips n s done).2 ≤ done + n ∧
    (Crossing.passes lanes maxFlips n s done).2 ≤
      (Crossing.passes lanes maxFlips n s done).1.flips.length + 1 := by
  -- the invariant is `h`: no fewer flips than passes so far, since each of them kept one
  induction n generalizing s done with
  | zero => exact ⟨Nat.le_refl _, Nat.le_succ_of_le h⟩
  | succ n ih =>
    unfold Crossing.passes
    split
    · exact ⟨Nat.le_add_right _ _, Nat.le_succ_of_le h⟩
    · obtain ⟨kept, -, hflips⟩ := s.flips_pass lanes maxFlips
      have hlength : (s.pass lanes maxFlips).flips.length = s.flips.length + kept.length := by
        rw [hflips, List.length_append]
      simp only
      split
      · -- the last pass: it kept nothing
        refine ⟨?_, ?_⟩
        · show done + 1 ≤ done + (n + 1)
          omega
        · show done + 1 ≤ (s.pass lanes maxFlips).flips.length + 1
          omega
      · have hdone : done + 1 ≤ (s.pass lanes maxFlips).flips.length := by omega
        obtain ⟨hallowed, hkept⟩ := ih hdone
        exact ⟨by omega, hkept⟩

end Progress

/-! ## The report -/

/-- The flips of a search fit the budget, so none is lost in the report, and each was paid
for with a crossing. -/
theorem flips_report (p : Placement) (lanes : List Lane) (budget : Budget) :
    let r := refine p lanes budget
    r.report.flips.toNat = r.flips.length ∧ r.flips.length ≤ budget.maxFlips.toNat ∧
      r.flips.length + r.report.after ≤ r.report.before := by
  intro r
  have hthrifty : (passes lanes budget.maxFlips.toNat budget.maxPasses.toNat
      ⟨p, count p lanes, []⟩ 0).1.Thrifty budget.maxFlips.toNat (count p lanes) :=
    (Progress.thrifty_start _ p lanes).passes _ _
  -- a number that fits its budget does not wrap
  have hexact : r.report.flips.toNat = r.flips.length :=
    UInt32.toNat_ofNat_of_lt' (Nat.lt_of_le_of_lt hthrifty.room budget.maxFlips.toNat_lt)
  exact ⟨hexact, hthrifty.room, hthrifty.paid⟩

/-- So do the passes. All but one of them kept a flip, and each flipped a sector once at most. -/
theorem passes_report (p : Placement) (lanes : List Lane) (budget : Budget) :
    let r := refine p lanes budget
    r.report.passes.toNat ≤ budget.maxPasses.toNat ∧
      r.report.passes.toNat ≤ r.flips.length + 1 ∧
      ∀ id, (r.flips.map (·.sector)).count id ≤ r.report.passes.toNat := by
  intro r
  let found := passes lanes budget.maxFlips.toNat budget.maxPasses.toNat ⟨p, count p lanes, []⟩ 0
  obtain ⟨hallowed, hkept⟩ : found.2 ≤ 0 + budget.maxPasses.toNat ∧
      found.2 ≤ found.1.flips.length + 1 := Progress.passes_le _ (Nat.zero_le _)
  rw [Nat.zero_add] at hallowed
  have hexact : r.report.passes.toNat = found.2 :=
    UInt32.toNat_ofNat_of_lt' (Nat.lt_of_le_of_lt hallowed budget.maxPasses.toNat_lt)
  rw [hexact]
  exact ⟨hallowed, hkept, fun id => Progress.count_flips_passes _ (Nat.le_refl 0)⟩

/-- The crossings that a search carries along are those of its positions at the end. -/
theorem after_report (p : Placement) (lanes : List Lane) (budget : Budget) :
    (refine p lanes budget).report.after = count (refine p lanes budget).positions lanes :=
  ((Progress.sound_start p lanes).passes _ _).crossings

/-- **A search accounts for itself.** Its flips, made in order, lead from its start to its
positions; each one starts where its sector is at that moment and leaves fewer crossings
behind. The report counts crossings, flips and passes as they are. Flips are limited by
the budget and by the crossings that are gone; passes by the budget and, but for the last
one, by the flips; and flips of one sector by the passes. Only sectors that have a
position are flipped, and nothing else changes. -/
theorem refine_accounted (p : Placement) (lanes : List Lane) (budget : Budget) :
    let r := refine p lanes budget
    r.positions = replay p r.flips ∧
    Replays lanes p r.flips ∧
    r.report.before = count p lanes ∧
    r.report.after = count r.positions lanes ∧
    r.report.flips.toNat = r.flips.length ∧
    r.flips.length ≤ budget.maxFlips.toNat ∧
    r.flips.length + r.report.after ≤ r.report.before ∧
    r.report.passes.toNat ≤ budget.maxPasses.toNat ∧
    r.report.passes.toNat ≤ r.flips.length + 1 ∧
    (∀ id, (r.flips.map (·.sector)).count id ≤ r.report.passes.toNat) ∧
    r.flips.map (·.sector) ⊆ p.keys ∧
    r.positions.keys = p.keys ∧
    ∀ id, id ∈ r.flips.map (·.sector) ∨ r.positions.get? id = p.get? id := by
  intro r
  obtain ⟨hpositions, hreplays⟩ := refine_sound p lanes budget
  obtain ⟨hflips, hroom, hpaid⟩ := flips_report p lanes budget
  obtain ⟨hallowed, hkept, hcount⟩ := passes_report p lanes budget
  refine ⟨hpositions, hreplays, rfl, after_report p lanes budget, hflips, hroom, hpaid, hallowed,
    hkept, hcount, ?_, ?_, ?_⟩
  · intro id hid
    obtain ⟨f, hf, rfl⟩ := List.mem_map.1 hid
    exact (IdMap.contains_iff_mem_keys _).1 (contains_of_mem_flips hreplays hf)
  · exact IdMap.keys_eq_of_contains (contains_positions_refine p lanes budget)
  · intro id
    by_cases hid : id ∈ r.flips.map (·.sector)
    · exact .inl hid
    · refine .inr ?_
      show (refine p lanes budget).positions.get? id = p.get? id
      rw [hpositions]
      exact get?_replay_of_not_mem p hid

end LaneChart.Crossing
