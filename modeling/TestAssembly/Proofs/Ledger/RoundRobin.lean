import Mathlib
import TestAssembly.Proofs.Ledger.Record

/-!
# Cyclic dealing

When every request on a segment has the same eligible groups, the ledger deals them like cards:
the answers one after the other run through the groups in ascending order, around and around, and
each request goes on where the one before it stopped (`dealt_inTurn`). How many groups a request
takes, by its item counts and the number wanted, decides only where it stops.

After `n` cards each group has its even share of them, the first `n % keys.length` groups one more
(`InTurn.count`). The groups with one more are then the first ones, so the queue of the next
request is the list of groups rotated by `n` (`queue_eq_rotate`), and what it deals is a first part
of that.
-/

namespace TestAssembly

/-! ### Going around a list -/

/-- **In turn**: the picks run through the keys from the first one on, around and around. -/
def InTurn (keys picks : List String) : Prop :=
  ∀ t < picks.length, picks[t]? = keys[t % keys.length]?

/-- **Share** of the key at an index after a number of picks in turn among `size` keys. -/
def share (picks size index : Nat) : Nat :=
  picks / size + if index < picks % size then 1 else 0

/-- Shares are even up to one. -/
theorem share_le_succ (picks size i j : Nat) : share picks size i ≤ share picks size j + 1 := by
  unfold share
  split <;> split <;> omega

namespace InTurn

variable {keys picks groups : List String}

theorem nil (keys : List String) : InTurn keys [] := fun _ ht => absurd ht (Nat.not_lt_zero _)

/-- Picks go on in turn from where they stopped. -/
theorem append (h : InTurn keys picks) (hgroups : groups <+: keys.rotate picks.length) :
    InTurn keys (picks ++ groups) := by
  intro t ht
  rcases Nat.lt_or_ge t picks.length with hlt | hge
  · rw [List.getElem?_append_left hlt, h t hlt]
  · rw [List.length_append] at ht
    have hlen := hgroups.length_le
    rw [List.length_rotate] at hlen
    have hget := List.prefix_iff_getElem?.mp hgroups (t - picks.length) (by omega)
    rw [List.getElem?_rotate (by omega), Nat.sub_add_cancel hge] at hget
    rw [List.getElem?_append_right hge, List.getElem?_eq_getElem (by omega), hget]

/-- **Even shares**: how often a key is among picks in turn. -/
theorem count (h : InTurn keys picks) (hnodup : keys.Nodup) {i : Nat} (hi : i < keys.length) :
    picks.count keys[i] = share picks.length keys.length i := by
  have hpos : 0 < keys.length := by omega
  have : NeZero keys.length := ⟨hpos.ne'⟩
  have hpicks : picks =
      (List.range picks.length).map fun t => keys.get (Fin.ofNat keys.length t) := by
    refine List.ext_getElem? fun t => ?_
    rcases Nat.lt_or_ge t picks.length with hlt | hge
    · rw [h t hlt, List.getElem?_map, List.getElem?_range hlt, Option.map_some,
        List.getElem?_eq_getElem (Nat.mod_lt _ hpos)]
      rfl
    · rw [List.getElem?_eq_none hge, List.getElem?_eq_none (by simpa using hge)]
  have hturn : ∀ t ∈ List.range picks.length,
      ((keys.get (Fin.ofNat keys.length t) == keys[i]) = true ↔
        decide (t ≡ i [MOD keys.length]) = true) := by
    intro t _
    rw [beq_iff_eq, decide_eq_true_eq, List.get_eq_getElem, hnodup.getElem_inj_iff, Nat.ModEq,
      Nat.mod_eq_of_lt hi, Fin.val_ofNat]
  calc picks.count keys[i]
      = (List.range picks.length).countP fun t => decide (t ≡ i [MOD keys.length]) := by
        conv_lhs => rw [hpicks]
        rw [List.count, List.countP_map]
        exact List.countP_congr hturn
    _ = picks.length.count (· ≡ i [MOD keys.length]) := rfl
    _ = share picks.length keys.length i := by
        rw [Nat.count_modEq_card _ hpos, Nat.mod_eq_of_lt hi, share]

end InTurn

/-! ### The queue goes around -/

namespace Ledger

variable {ledger : Ledger} {segment : String} {eligible : NameMap UInt32} {picks : Nat}

/-- With even shares the queue starts where the picks stopped. -/
theorem queue_eq_rotate (huses : ∀ i (hi : i < eligible.keys.length),
      ledger.uses segment eligible.keys[i] = share picks eligible.keys.length i) :
    ledger.queue segment eligible = eligible.keys.rotate picks := by
  symm
  refine eq_queue ledger segment eligible (List.rotate_perm _ _) ?_
  rw [List.rotate_eq_drop_append_take_mod]
  set next := picks % eligible.keys.length with hnext
  -- the keys before the next one have one use more than the others
  have hdrop : ∀ g ∈ eligible.keys.drop next,
      ledger.uses segment g = picks / eligible.keys.length := by
    intro g hg
    obtain ⟨i, hi, rfl⟩ := List.mem_iff_getElem.mp hg
    rw [List.length_drop] at hi
    rw [List.getElem_drop, huses _ (by omega), share, if_neg (by omega), Nat.add_zero]
  have htake : ∀ g ∈ eligible.keys.take next,
      ledger.uses segment g = picks / eligible.keys.length + 1 := by
    intro g hg
    obtain ⟨i, hi, rfl⟩ := List.mem_iff_getElem.mp hg
    rw [List.length_take] at hi
    rw [List.getElem_take, huses _ (by omega), share, if_pos (by omega)]
  refine List.pairwise_append.mpr ⟨?_, ?_, fun g hg h hh => .inl ?_⟩
  · refine (eligible.pairwise_keys.sublist (List.drop_sublist _ _)).imp_of_mem
      fun {g h} hg hh hlt => .inr ⟨?_, hlt⟩
    simp only [hdrop g hg, hdrop h hh]
  · refine (eligible.pairwise_keys.sublist (List.take_sublist _ _)).imp_of_mem
      fun {g h} hg hh hlt => .inr ⟨?_, hlt⟩
    simp only [htake g hg, htake h hh]
  · simp only [hdrop g hg, htake h hh]
    omega

end Ledger

/-! ### What is dealt on a segment -/

/-- The groups dealt on a segment, answer after answer. -/
def dealtOn (segment : String) (dealings : List Dealing) : List String :=
  (dealings.filter (·.segment == segment)).flatMap (·.groups)

section DealtOn

variable {segment : String} {dealings : List Dealing}

@[simp] theorem dealtOn_append (more : List Dealing) :
    dealtOn segment (dealings ++ more) = dealtOn segment dealings ++ dealtOn segment more := by
  simp [dealtOn]

@[simp] theorem dealtOn_singleton (d : Dealing) :
    dealtOn segment [d] = if d.segment = segment then d.groups else [] := by
  by_cases h : d.segment = segment <;> simp [dealtOn, h]

/-- A group is dealt once for each answer that names it. -/
theorem count_dealtOn (h : ∀ d ∈ dealings, d.segment = segment → d.groups.Nodup) (g : String) :
    (dealtOn segment dealings).count g =
      dealings.countP fun d => d.segment = segment ∧ g ∈ d.groups := by
  induction dealings with
  | nil => rfl
  | cons d rest ih =>
    rw [← List.singleton_append, dealtOn_append, dealtOn_singleton, List.count_append,
      List.countP_append, ih fun e he => h e (List.mem_cons_of_mem _ he), List.countP_singleton]
    by_cases hseg : d.segment = segment
    · simp [hseg, (h d List.mem_cons_self hseg).count]
    · simp [hseg]

end DealtOn

namespace IsRecordOf

variable {segment : String} {dealings : List Dealing} {ledger : Ledger} {keys : List String}

/-- As long as groups are dealt in turn, each has its share of uses. -/
theorem uses_eq_share (h : IsRecordOf segment dealings (ledger.tallies segment))
    (hturn : InTurn keys (dealtOn segment dealings)) (hnodup : keys.Nodup) {i : Nat}
    (hi : i < keys.length) :
    ledger.uses segment keys[i] = share (dealtOn segment dealings).length keys.length i := by
  rw [Ledger.uses, h.uses_eq, ← count_dealtOn h.nodup_groups, hturn.count hnodup hi]

/-- **One claim** goes on in turn. -/
theorem inTurn_claim (h : IsRecordOf segment dealings (ledger.tallies segment))
    (hturn : InTurn keys (dealtOn segment dealings)) {r : ClaimRequest}
    (hsame : r.segment = segment → r.eligible.keys = keys) :
    InTurn keys (dealtOn segment
      (dealings ++ [⟨r, (ledger.claim r.segment r.eligible r.wanted).1⟩])) := by
  rw [dealtOn_append, dealtOn_singleton]
  by_cases hseg : r.segment = segment
  · obtain rfl := hsame hseg
    subst hseg
    rw [if_pos rfl]
    refine hturn.append ?_
    rw [← Ledger.queue_eq_rotate fun i hi => h.uses_eq_share hturn r.eligible.nodup_keys hi]
    exact Ledger.claim_prefix_queue _ _ h.toOrderly
  · rw [if_neg hseg, List.append_nil]
    exact hturn

/-- **A run of claims** goes on in turn. -/
theorem inTurn_serve (h : IsRecordOf segment dealings (ledger.tallies segment))
    (hturn : InTurn keys (dealtOn segment dealings)) {requests : List ClaimRequest}
    (hsame : ∀ r ∈ requests, r.segment = segment → r.eligible.keys = keys) :
    InTurn keys (dealtOn segment (dealings ++ (ledger.serve requests).1)) := by
  induction requests generalizing ledger dealings with
  | nil => simpa using hturn
  | cons r rest ih =>
    have hnext := ih (h.claim r) (h.inTurn_claim hturn (hsame r List.mem_cons_self))
      fun q hq => hsame q (List.mem_cons_of_mem _ hq)
    rwa [List.append_assoc, List.singleton_append] at hnext

end IsRecordOf

namespace Ledger

/-- A segment that was never claimed on has no counters. -/
theorem tallies_of_not_tracking {ledger : Ledger} {segment : String}
    (h : ledger.isTracking segment = false) : ledger.tallies segment = [] := by
  have hnone : ledger.segments.get? segment = none := by
    simpa [isTracking] using h
  simp [tallies, hnone]

/-- **Cyclic dealing.** On a segment that was never claimed on, let every request have the same
eligible groups. Then the answers one after the other run through these groups in ascending order,
around and around, each group has its even share of the picks as its counter, and no two counters
differ by more than one. Item counts, numbers wanted and requests on other segments in between do
not matter. -/
theorem dealt_inTurn (ledger : Ledger) (segment : String) (keys : List String)
    (requests : List ClaimRequest) (hfresh : ledger.isTracking segment = false)
    (hsame : ∀ r ∈ requests, r.segment = segment → r.eligible.keys = keys) :
    let served := ledger.serve requests
    let picks := dealtOn segment served.1
    InTurn keys picks ∧
    ((∃ r ∈ requests, r.segment = segment) → ∀ i (hi : i < keys.length),
      served.2.occurrences? segment keys[i] = some (share picks.length keys.length i)) ∧
    ∀ a ∈ served.2.tallies segment, ∀ b ∈ served.2.tallies segment,
      a.occurrences ≤ b.occurrences + 1 := by
  intro served picks
  have hstart : IsRecordOf segment [] (ledger.tallies segment) := by
    rw [tallies_of_not_tracking hfresh]
    exact .nil segment
  have hrecord : IsRecordOf segment served.1 (served.2.tallies segment) := hstart.serve requests
  have hturn : InTurn keys picks := hstart.inTurn_serve (.nil keys) hsame
  -- the counters are those of the keys
  have hkeys : ∀ g, g ∈ (served.2.tallies segment).map (·.groupKey) ↔
      (∃ r ∈ requests, r.segment = segment) ∧ g ∈ keys := by
    intro g
    rw [hrecord.mem_keys_iff]
    constructor
    · rintro ⟨d, hd, hseg, hg⟩
      have hmem := mem_of_mem_serve hd
      exact ⟨⟨d.toClaimRequest, hmem, hseg⟩, hsame _ hmem hseg ▸ hg⟩
    · rintro ⟨⟨r, hr, hseg⟩, hg⟩
      rw [← map_toClaimRequest_serve ledger requests] at hr
      obtain ⟨d, hd, rfl⟩ := List.mem_map.mp hr
      have heq := hsame _ (mem_of_mem_serve hd) hseg
      exact ⟨d, hd, hseg, heq ▸ hg⟩
  have hnodup : (∃ r ∈ requests, r.segment = segment) → keys.Nodup := by
    rintro ⟨r, hr, hseg⟩
    exact hsame r hr hseg ▸ r.eligible.nodup_keys
  have hshare : ∀ t ∈ served.2.tallies segment,
      ∃ i, t.occurrences = share picks.length keys.length i := by
    intro t ht
    obtain ⟨hsome, hg⟩ := (hkeys t.groupKey).mp (List.mem_map_of_mem ht)
    obtain ⟨i, hi, hget⟩ := List.mem_iff_getElem.mp hg
    refine ⟨i, ?_⟩
    rw [← usesIn_of_mem hrecord.nodup ht, ← hget]
    exact hrecord.uses_eq_share hturn (hnodup hsome) hi
  refine ⟨hturn, fun hsome i hi => ?_, fun a ha b hb => ?_⟩
  · have hg : keys[i] ∈ (served.2.tallies segment).map (·.groupKey) :=
      (hkeys _).mpr ⟨hsome, List.getElem_mem hi⟩
    rw [occurrences?_of_mem_keys hg, hrecord.uses_eq_share hturn (hnodup hsome) hi]
  · obtain ⟨i, hi⟩ := hshare a ha
    obtain ⟨j, hj⟩ := hshare b hb
    rw [hi, hj]
    exact share_le_succ _ _ _ _

/-- Two requests for the same groups with other item counts, and one on another segment. -/
def mixedRequests : List ClaimRequest :=
  [⟨"S", .ofList [("a", 1), ("b", 2), ("c", 1)], 2⟩, ⟨"T", .ofList [("x", 1)], 1⟩,
    ⟨"S", .ofList [("a", 5), ("b", 0), ("c", 1)], 6⟩]

/-- The second request goes on where the first one stopped and comes around to the first group. -/
theorem dealt_inTurn_mixedRequests :
    dealtOn "S" (empty.serve mixedRequests).1 = ["a", "b", "c", "a"] ∧
    InTurn ["a", "b", "c"] (dealtOn "S" (empty.serve mixedRequests).1) ∧
    (empty.serve mixedRequests).2.occurrences? "S" "a" = some 2 := by
  have hdealt : dealtOn "S" (empty.serve mixedRequests).1 = ["a", "b", "c", "a"] := by cbv
  obtain ⟨hturn, hcounters, -⟩ :=
    dealt_inTurn empty "S" ["a", "b", "c"] mixedRequests rfl (by decide)
  have hcount := hcounters (by decide) 0 (by decide)
  simp only [hdealt] at hcount
  exact ⟨hdealt, hturn, hcount⟩

end Ledger

end TestAssembly
