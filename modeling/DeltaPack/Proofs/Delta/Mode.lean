import DeltaPack.Delta.Mode
import Mathlib.Tactic.SplitIfs

/-!
# The most frequent difference

A tally holds the differences that occur, each with how often it does (`Delta.mem_tally_iff`), and
the preferred one of its entries is beaten by none (`Delta.exists_of_preferred_eq_some`). So every
list but the empty one has a most frequent difference (`Delta.mode_eq_none_iff`), which occurs in
it, and no difference occurs more often (`Delta.count_le_count_mode`).

Among equally frequent differences the lowest is chosen. `IsLowestMode` says so without a tally,
and fixes the difference (`IsLowestMode.eq`). So the choice cannot depend on the order in which the
entries of a tally come: any entries that hold the same differences with the same counts lead to
it (`Delta.preferred_eq_some_iff`, `Delta.mode_isLowestMode`).
-/

namespace DeltaPack.Delta

/-! ### What a tally holds -/

private theorem isEmpty_foldl_insert (deltas : List Int32) (counts : Std.TreeMap Int32 Nat) :
    (deltas.foldl (fun counts delta => counts.insert delta (counts.getD delta 0 + 1))
      counts).isEmpty = (counts.isEmpty && deltas.isEmpty) := by
  induction deltas generalizing counts with
  | nil => simp
  | cons delta rest ih => simp [ih, Std.TreeMap.isEmpty_insert]

theorem tally_eq_nil_iff {deltas : List Int32} : tally deltas = [] ↔ deltas = [] := by
  rw [tally, ← List.isEmpty_iff, Std.TreeMap.isEmpty_toList, isEmpty_foldl_insert]
  simp

private theorem getD_foldl_insert (deltas : List Int32) (counts : Std.TreeMap Int32 Nat)
    (d : Int32) :
    (deltas.foldl (fun counts delta => counts.insert delta (counts.getD delta 0 + 1))
      counts).getD d 0 = counts.getD d 0 + deltas.count d := by
  induction deltas generalizing counts with
  | nil => rfl
  | cons delta rest ih =>
    rw [List.foldl_cons, ih, Std.TreeMap.getD_insert, List.count_cons]
    simp only [Std.LawfulEqCmp.compare_eq_iff_eq, beq_iff_eq]
    split_ifs with h
    · subst h
      omega
    · omega

private theorem mem_foldl_insert (deltas : List Int32) (counts : Std.TreeMap Int32 Nat)
    (d : Int32) :
    d ∈ deltas.foldl (fun counts delta => counts.insert delta (counts.getD delta 0 + 1)) counts ↔
      d ∈ counts ∨ d ∈ deltas := by
  induction deltas generalizing counts with
  | nil => simp
  | cons delta rest ih =>
    rw [List.foldl_cons, ih, Std.TreeMap.mem_insert, Std.LawfulEqCmp.compare_eq_iff_eq,
      List.mem_cons, eq_comm, or_assoc, or_left_comm]

/-- **A tally holds each difference that occurs**, with how often it does, and nothing else. -/
theorem mem_tally_iff {deltas : List Int32} {d : Int32} {n : Nat} :
    (d, n) ∈ tally deltas ↔ d ∈ deltas ∧ n = deltas.count d := by
  have hmem := mem_foldl_insert deltas ∅ d
  have hcount := getD_foldl_insert deltas ∅ d
  rw [or_iff_right Std.TreeMap.not_mem_emptyc] at hmem
  rw [Std.TreeMap.getD_emptyc, Nat.zero_add] at hcount
  rw [tally, Std.TreeMap.mem_toList_iff_getElem?_eq_some]
  constructor
  · intro h
    refine ⟨hmem.1 (Std.TreeMap.mem_iff_isSome_getElem?.2 (by rw [h]; rfl)), ?_⟩
    rw [← hcount, Std.TreeMap.getD_eq_getD_getElem?, h, Option.getD_some]
  · rintro ⟨hd, rfl⟩
    rw [← hcount]
    exact Std.TreeMap.getElem?_eq_some_getD (hmem.2 hd)

/-! ### Which entry is preferred -/

theorem beats_iff {a b : Int32 × Nat} :
    beats a b = true ↔ b.2 < a.2 ∨ (a.2 = b.2 ∧ a.1.toInt < b.1.toInt) := by
  simp [beats, Int32.lt_iff_toInt_lt]

theorem beats_trans {a b c : Int32 × Nat} (hab : beats a b = true) (hbc : beats b c = true) :
    beats a c = true := by
  rw [beats_iff] at *
  omega

/-- What is not beaten by one entry is not beaten by those that do not beat this one. -/
theorem not_beats_trans {a b c : Int32 × Nat} (hab : ¬beats a b = true) (hbc : ¬beats b c = true) :
    ¬beats a c = true := by
  rw [beats_iff] at *
  omega

/-- The invariant of the choice: the best entry so far is beaten by none that was seen. -/
private theorem foldl_beats (rest : List (Int32 × Nat)) (best : Int32 × Nat) :
    let chosen := rest.foldl (fun best other => if beats other best then other else best) best
    chosen ∈ best :: rest ∧ ∀ entry ∈ best :: rest, ¬beats entry chosen = true := by
  induction rest generalizing best with
  | nil => simp [beats_iff]
  | cons other rest ih =>
    simp only [List.foldl_cons]
    by_cases h : beats other best = true
    · obtain ⟨hmem, hall⟩ := ih other
      obtain ⟨hother, hrest⟩ := List.forall_mem_cons.1 hall
      rw [if_pos h]
      refine ⟨List.mem_cons_of_mem _ hmem, List.forall_mem_cons.2 ⟨fun hbest => ?_, hall⟩⟩
      exact hother (beats_trans h hbest)
    · obtain ⟨hmem, hall⟩ := ih best
      obtain ⟨hbest, hrest⟩ := List.forall_mem_cons.1 hall
      rw [if_neg h]
      refine ⟨?_, List.forall_mem_cons.2 ⟨hbest, List.forall_mem_cons.2 ⟨?_, hrest⟩⟩⟩
      · rcases List.mem_cons.1 hmem with heq | hmem
        · exact List.mem_cons.2 (.inl heq)
        · exact List.mem_cons_of_mem _ (List.mem_cons_of_mem _ hmem)
      · exact not_beats_trans h hbest

/-- **The preferred difference is that of an entry which no other beats.** -/
theorem exists_of_preferred_eq_some {entries : List (Int32 × Nat)} {d : Int32}
    (h : preferred entries = some d) :
    ∃ n, (d, n) ∈ entries ∧ ∀ entry ∈ entries, ¬beats entry (d, n) = true := by
  cases entries with
  | nil => cases h
  | cons entry rest =>
    obtain ⟨hmem, hall⟩ := foldl_beats rest entry
    obtain rfl := Option.some.inj h
    exact ⟨_, hmem, hall⟩

theorem preferred_eq_none_iff {entries : List (Int32 × Nat)} :
    preferred entries = none ↔ entries = [] := by
  cases entries with
  | nil => simp [preferred]
  | cons entry rest => simp [preferred]

/-- **Every list but the empty one has a common difference.** -/
theorem mode_eq_none_iff {words : List UInt32} : mode words = none ↔ words = [] := by
  rw [mode, preferred_eq_none_iff, tally_eq_nil_iff, ← List.length_eq_zero_iff,
    length_differences, List.length_eq_zero_iff]

/-! ### The lowest of the most frequent -/

/-- The **lowest mode** of a list of differences. -/
structure IsLowestMode (deltas : List Int32) (d : Int32) : Prop where
  /-- It occurs. -/
  mem : d ∈ deltas
  /-- None occurs more often. -/
  count_le : ∀ e, deltas.count e ≤ deltas.count d
  /-- Every other that occurs as often is greater as a signed number. -/
  lt_of_count_eq : ∀ e ∈ deltas, e ≠ d → deltas.count e = deltas.count d → d.toInt < e.toInt

/-- There is at most one lowest mode. -/
theorem IsLowestMode.eq {deltas : List Int32} {d e : Int32} (hd : IsLowestMode deltas d)
    (he : IsLowestMode deltas e) : d = e := by
  refine Decidable.byContradiction fun hne => ?_
  have hcount : deltas.count d = deltas.count e := Nat.le_antisymm (he.count_le d) (hd.count_le e)
  have hde : d.toInt < e.toInt := hd.lt_of_count_eq e he.mem (Ne.symm hne) hcount.symm
  have hed : e.toInt < d.toInt := he.lt_of_count_eq d hd.mem hne hcount
  omega

section Entries

variable {entries : List (Int32 × Nat)} {deltas : List Int32}
  (hentries : ∀ d n, (d, n) ∈ entries ↔ d ∈ deltas ∧ n = deltas.count d)

include hentries

/-- Among entries that hold the differences with their counts, an entry that no other beats is
that of the lowest mode. -/
theorem isLowestMode_of_preferred {d : Int32} (h : preferred entries = some d) :
    IsLowestMode deltas d := by
  obtain ⟨n, hmem, hall⟩ := exists_of_preferred_eq_some h
  obtain ⟨hd, rfl⟩ := (hentries d n).1 hmem
  have hbeaten (e : Int32) (he : e ∈ deltas) :
      ¬(deltas.count d < deltas.count e ∨
        (deltas.count e = deltas.count d ∧ e.toInt < d.toInt)) := by
    have hentry := hall (e, deltas.count e) ((hentries e _).2 ⟨he, rfl⟩)
    rwa [beats_iff] at hentry
  refine ⟨hd, fun e => ?_, fun e he hne hcount => ?_⟩
  · by_cases he : e ∈ deltas
    · have hnot := hbeaten e he
      omega
    · rw [List.count_eq_zero_of_not_mem he]
      exact Nat.zero_le _
  · have hnot := hbeaten e he
    have hvalue : e.toInt ≠ d.toInt := mt Int32.toInt_inj.1 hne
    omega

/-- **The choice is that of the lowest mode**, whatever the order of the entries. -/
theorem preferred_eq_some_iff {d : Int32} :
    preferred entries = some d ↔ IsLowestMode deltas d := by
  constructor
  · exact isLowestMode_of_preferred hentries
  · intro hd
    rcases hchoice : preferred entries with _ | e
    · have hmem : (d, deltas.count d) ∈ entries := (hentries d _).2 ⟨hd.mem, rfl⟩
      rw [preferred_eq_none_iff.1 hchoice] at hmem
      exact absurd hmem List.not_mem_nil
    · rw [hd.eq (isLowestMode_of_preferred hentries hchoice)]

end Entries

theorem mode_eq_some_iff {words : List UInt32} {d : Int32} :
    mode words = some d ↔ IsLowestMode (differences words) d :=
  preferred_eq_some_iff fun _ _ => mem_tally_iff

/-- The common difference occurs, and **none occurs more often**. -/
theorem count_le_count_mode {words : List UInt32} {common : Int32} (h : mode words = some common)
    (d : Int32) : (differences words).count d ≤ (differences words).count common :=
  (mode_eq_some_iff.1 h).count_le d

/-- No difference is tallied twice. -/
theorem nodup_map_fst_tally (deltas : List Int32) : ((tally deltas).map Prod.fst).Nodup := by
  refine List.pairwise_map.2 (Std.TreeMap.distinct_keys_toList.imp fun {a b} hne => ?_)
  intro heq
  exact hne (Std.LawfulEqCmp.compare_eq_iff_eq.2 heq)

/-- **The common difference is the lowest mode**, in whatever order the differences are tallied.
There is none exactly for no words. Otherwise it is the one difference that occurs, is not exceeded
in frequency, and is lower as a signed number than every other difference that occurs as often. The
tally has one entry for each difference that occurs, which states how often it does, and the choice
among the same entries in any other order is the same. -/
theorem mode_isLowestMode (words : List UInt32) :
    (mode words = none ↔ words = []) ∧
      (∀ d, mode words = some d ↔ IsLowestMode (differences words) d) ∧
      ((tally (differences words)).map Prod.fst).Nodup ∧
      (∀ d n, (d, n) ∈ tally (differences words) ↔
        d ∈ differences words ∧ n = (differences words).count d) ∧
      ∀ entries, entries.Perm (tally (differences words)) → preferred entries = mode words := by
  refine ⟨mode_eq_none_iff, fun d => mode_eq_some_iff, nodup_map_fst_tally _,
    fun d n => mem_tally_iff, fun entries hperm => ?_⟩
  have hentries (d : Int32) (n : Nat) :
      (d, n) ∈ entries ↔ d ∈ differences words ∧ n = (differences words).count d := by
    rw [hperm.mem_iff, mem_tally_iff]
  refine Option.ext fun d => ?_
  rw [preferred_eq_some_iff hentries, mode_eq_some_iff]

/-- Two differences that occur twice, and the lowest number of all, which occurs once: the tally in
its own order and in another. -/
theorem mode_isLowestMode_five :
    let words : List UInt32 := [5, 2, 0x80000002, 0x80000007, 0x80000004]
    let entries : List (Int32 × Nat) := [(5, 2), (-3, 2), (-0x80000000, 1)]
    entries.Perm (tally (differences words)) ∧ mode words = some (-3) ∧
      preferred entries = some (-3) := by
  intro words entries
  have hperm : entries.Perm (tally (differences words)) := by decide +kernel
  obtain ⟨-, -, -, -, hchoice⟩ := mode_isLowestMode words
  have hmode : preferred entries = some (-3) := by decide +kernel
  exact ⟨hperm, (hchoice entries hperm).symm.trans hmode, hmode⟩

end DeltaPack.Delta
