import ExprLexer.Proofs.Binary64.Shortest

namespace ExprLexer.Binary64

variable {x : Binary64}

theorem ofDecimal_of_between {a b d : Decimal} (ha : ofDecimal a = x) (hb : ofDecimal b = x)
    (hs : d.negative = x.isNegative) (hle : a.toFraction.toRat ≤ d.toFraction.toRat)
    (hge : d.toFraction.toRat ≤ b.toFraction.toRat) : ofDecimal d = x := by
  have hlow := nearestMagnitude_mono a.toFraction_den_pos d.toFraction_den_pos hle
  have hhigh := nearestMagnitude_mono d.toFraction_den_pos b.toFraction_den_pos hge
  apply ext_parts
  · rw [isNegative_ofDecimal, hs]
  · apply le_antisymm
    · rw [← hb, magnitude_ofDecimal, magnitude_ofDecimal]
      exact hhigh
    · rw [← ha, magnitude_ofDecimal, magnitude_ofDecimal]
      exact hlow

theorem ofDecimal_of_nearer (h : x.isFinite) {d e : Decimal} (hd : ofDecimal d = x)
    (hs : e.negative = x.isNegative)
    (he : d.toFraction.toRat ≤ e.toFraction.toRat ∧ e.toFraction.toRat ≤ gridValue x.magnitude ∨
      gridValue x.magnitude ≤ e.toFraction.toRat ∧ e.toFraction.toRat ≤ d.toFraction.toRat) :
    ofDecimal e = x ∧ |e.toFraction.toRat - gridValue x.magnitude| ≤
      |d.toFraction.toRat - gridValue x.magnitude| := by
  have hself := ofDecimal_exactDecimal h
  rcases he with ⟨hfrom, hto⟩ | ⟨hto, hfrom⟩
  · refine ⟨ofDecimal_of_between hd hself hs hfrom (hto.trans_eq (toRat_exactDecimal x).symm), ?_⟩
    rw [abs_of_nonpos (by linarith), abs_of_nonpos (by linarith)]
    linarith
  · refine ⟨ofDecimal_of_between hself hd hs ((toRat_exactDecimal x).trans_le hto) hfrom, ?_⟩
    rw [abs_of_nonneg (by linarith), abs_of_nonneg (by linarith)]
    linarith

theorem toFraction_den_pos (x : Binary64) : 0 < x.toFraction.den :=
  Fraction.den_scale_pos Nat.one_pos (by decide) _

theorem gridValue_pos (hx : x.magnitude ≠ 0) : 0 < gridValue x.magnitude := by
  rw [← gridValue_zero]
  exact gridValue_strictMono (Nat.pos_of_ne_zero hx)

theorem log10_toFraction (hx : x.magnitude ≠ 0) :
    10 ^ x.toFraction.log10 ≤ gridValue x.magnitude ∧
      gridValue x.magnitude < 10 ^ (x.toFraction.log10 + 1) := by
  have hpos := gridValue_pos hx
  have hnum : 0 < x.toFraction.num := by
    rwa [← Fraction.toRat_pos_iff x.toFraction_den_pos, toRat_toFraction]
  rw [Fraction.log10_eq_log hnum x.toFraction_den_pos, toRat_toFraction]
  have hlow := Int.zpow_log_le_self (b := 10) (by decide) hpos
  have hhigh := Int.lt_zpow_succ_log_self (b := 10) (by decide) (gridValue x.magnitude)
  push_cast at hlow hhigh
  exact ⟨hlow, hhigh⟩

def gridFloor (x : Binary64) (exponent : Int) : Nat := (x.toFraction.scale 10 (-exponent)).floor

theorem mem_neighbours {k : Nat} {g : Int} :
    k ∈ neighbours x.toFraction g ↔ k = x.gridFloor g ∨ k = x.gridFloor g + 1 := by
  simp only [neighbours, gridFloor]
  split <;> simp [or_comm]

theorem gridValue_eq_scaled (x : Binary64) (g : Int) :
    gridValue x.magnitude = (x.toFraction.scale 10 (-g)).toRat * 10 ^ g := by
  rw [Fraction.toRat_scale _ (by decide), toRat_toFraction, mul_assoc, Nat.cast_ofNat,
    ← zpow_add₀ (by norm_num)]
  simp

theorem scaled_den_pos (x : Binary64) (g : Int) : 0 < (x.toFraction.scale 10 (-g)).den :=
  Fraction.den_scale_pos x.toFraction_den_pos (by decide) _

theorem gridFloor_spec (x : Binary64) (g : Int) : (x.gridFloor g * 10 ^ g : ℚ) ≤ gridValue x.magnitude ∧
    gridValue x.magnitude < (x.gridFloor g + 1 : Nat) * 10 ^ g := by
  have hunit : (0 : ℚ) < 10 ^ g := by positivity
  rw [gridValue_eq_scaled x g, mul_le_mul_iff_left₀ hunit, mul_lt_mul_iff_left₀ hunit]
  push_cast
  exact ⟨Fraction.floor_le (x.scaled_den_pos g), Fraction.lt_floor_add_one (x.scaled_den_pos g)⟩

theorem exists_grid_near (x : Binary64) (g : Int) :
    ∃ n : Nat, |n * 10 ^ g - gridValue x.magnitude| ≤ 10 ^ g / 2 := by
  obtain ⟨hlow, hhigh⟩ := x.gridFloor_spec g
  push_cast at hhigh
  rcases le_total (gridValue x.magnitude) ((x.gridFloor g + 1 / 2) * 10 ^ g) with hleft | hright
  · refine ⟨x.gridFloor g, abs_le.2 ⟨?_, ?_⟩⟩
    · linarith
    · linarith
  · refine ⟨x.gridFloor g + 1, abs_le.2 ⟨?_, ?_⟩⟩
    · push_cast
      linarith
    · push_cast
      linarith

theorem pairwise_neighbours (x : Binary64) (g : Int) :
    (neighbours x.toFraction g).Pairwise fun m n : Nat =>
      |m * 10 ^ g - gridValue x.magnitude| ≤ |n * 10 ^ g - gridValue x.magnitude| := by
  have hunit : (0 : ℚ) < 10 ^ g := by positivity
  have hden := x.scaled_den_pos g
  have hfloor := Fraction.floor_le hden
  have hnext := Fraction.lt_floor_add_one hden
  have hremainder := Fraction.remainder_eq hden
  simp only [gridValue_eq_scaled x g, ← sub_mul, abs_mul,
    mul_le_mul_iff_left₀ (abs_pos.2 hunit.ne')]
  rw [neighbours]
  generalize x.toFraction.scale 10 (-g) = scaled at *
  split
  · rename_i hless
    rw [hremainder, compare_lt_iff_lt] at hless
    rw [List.pairwise_pair, abs_of_nonpos (by linarith), abs_of_nonneg (by push_cast; linarith)]
    push_cast
    linarith
  · rename_i hmore
    rw [hremainder, compare_lt_iff_lt] at hmore
    have hmiddle := not_lt.1 hmore
    rw [List.pairwise_pair, abs_of_nonneg (by push_cast; linarith), abs_of_nonpos (by linarith)]
    push_cast
    linarith

theorem neighbour_le {k j : Nat} (hx : x.magnitude ≠ 0)
    (hk : k ∈ neighbours x.toFraction (x.toFraction.log10 - j)) : k ≤ 10 ^ (j + 1) := by
  have hle := (x.gridFloor_spec (x.toFraction.log10 - j)).1.trans_lt (log10_toFraction hx).2
  have hunit : (0 : ℚ) < 10 ^ (x.toFraction.log10 - j) := by positivity
  have hpower : x.toFraction.log10 + 1 = (j + 1 : Nat) + (x.toFraction.log10 - j) := by omega
  rw [hpower, zpow_add₀ (by norm_num), zpow_natCast, mul_lt_mul_iff_left₀ hunit] at hle
  have hfloor : x.gridFloor (x.toFraction.log10 - j) < 10 ^ (j + 1) := by exact_mod_cast hle
  rcases mem_neighbours.1 hk with rfl | rfl <;> omega

/-- If some point of a grid is rounded to the number, a point next to the value is, and is not farther
from it. -/
theorem exists_candidate (h : x.isFinite) {n : Nat} {g : Int}
    (hn : ofDecimal ⟨x.isNegative, n, g⟩ = x) :
    ∃ k ∈ neighbours x.toFraction g, ofDecimal ⟨x.isNegative, k, g⟩ = x ∧
      |k * 10 ^ g - gridValue x.magnitude| ≤ |n * 10 ^ g - gridValue x.magnitude| := by
  obtain ⟨hlow, hhigh⟩ := x.gridFloor_spec g
  have hunit : (0 : ℚ) < 10 ^ g := by positivity
  have nearer {k : Nat} (hk : (n * 10 ^ g : ℚ) ≤ k * 10 ^ g ∧ k * 10 ^ g ≤ gridValue x.magnitude ∨
      gridValue x.magnitude ≤ k * 10 ^ g ∧ (k * 10 ^ g : ℚ) ≤ n * 10 ^ g) :
      ofDecimal ⟨x.isNegative, k, g⟩ = x ∧
        |k * 10 ^ g - gridValue x.magnitude| ≤ |n * 10 ^ g - gridValue x.magnitude| := by
    have hmid := ofDecimal_of_nearer h hn (e := ⟨x.isNegative, k, g⟩) rfl
    simp only [Decimal.toRat_toFraction] at hmid
    exact hmid hk
  rcases le_or_gt n (x.gridFloor g) with hle | hgt
  · refine ⟨x.gridFloor g, mem_neighbours.2 (.inl rfl), nearer (.inl ⟨?_, hlow⟩)⟩
    rw [mul_le_mul_iff_left₀ hunit]
    exact_mod_cast hle
  · refine ⟨x.gridFloor g + 1, mem_neighbours.2 (.inr rfl), nearer (.inr ⟨hhigh.le, ?_⟩)⟩
    rw [mul_le_mul_iff_left₀ hunit]
    exact_mod_cast hgt

theorem rel_of_find?_eq_some {α : Type} {R : α → α → Prop} {p : α → Bool} {l : List α}
    (hl : l.Pairwise R) (hrefl : ∀ a, R a a) {a b : α} (ha : l.find? p = some a) (hb : b ∈ l)
    (hp : p b) : R a b := by
  obtain ⟨-, before, after, rfl, hmiss⟩ := List.find?_eq_some_iff_append.1 ha
  rcases List.mem_append.1 hb with hbefore | hrest
  · have hnot := hmiss b hbefore
    rw [hp] at hnot
    cases hnot
  · rcases List.mem_cons.1 hrest with rfl | hafter
    · exact hrefl b
    · exact List.rel_of_pairwise_cons (List.pairwise_append.1 hl).2.1 hafter

/-- The search does not go past a grid with a point that is rounded to the number, and finds the nearest
such point of the grid that it stops at. -/
theorem exists_shortest_of_grid (h : x.isFinite) (hx : x.magnitude ≠ 0) {i n : Nat} (hi : i < 17)
    (hn : ofDecimal ⟨x.isNegative, n, x.toFraction.log10 - i⟩ = x) :
    ∃ j ≤ i, ∃ k ∈ neighbours x.toFraction (x.toFraction.log10 - j),
      x.shortest = ⟨x.isNegative, k, x.toFraction.log10 - j⟩ ∧
      ∀ m : Nat, ofDecimal ⟨x.isNegative, m, x.toFraction.log10 - j⟩ = x →
        |k * 10 ^ (x.toFraction.log10 - j) - gridValue x.magnitude| ≤
          |m * 10 ^ (x.toFraction.log10 - j) - gridValue x.magnitude| := by
  let search (i : Nat) := (x.candidates (x.toFraction.log10 - i)).find? fun d => ofDecimal d = x
  obtain ⟨k, hk, hround, -⟩ := exists_candidate h hn
  have hhit : (search i).isSome := by
    rw [List.find?_isSome]
    exact ⟨_, List.mem_map_of_mem hk, by simpa using hround⟩
  have hsome : ((List.range 17).findSome? search).isSome :=
    List.findSome?_isSome_iff.2 ⟨i, List.mem_range.2 hi, hhit⟩
  obtain ⟨d, hd⟩ := Option.isSome_iff_exists.1 hsome
  obtain ⟨before, j, after, hrange, hj, hmiss⟩ := List.findSome?_eq_some_iff.1 hd
  have hle : j ≤ i := by
    have horder := List.pairwise_lt_range (n := 17)
    have hmem := List.mem_range.2 hi
    rw [hrange] at horder hmem
    rcases List.mem_append.1 hmem with hbefore | hrest
    · rw [hmiss i hbefore] at hhit
      cases hhit
    · rcases List.mem_cons.1 hrest with rfl | hafter
      · exact le_rfl
      · exact (List.rel_of_pairwise_cons (List.pairwise_append.1 horder).2.1 hafter).le
  change ((neighbours x.toFraction (x.toFraction.log10 - j)).map _).find? _ = some d at hj
  rw [List.find?_map, Option.map_eq_some_iff] at hj
  obtain ⟨k, hfind, rfl⟩ := hj
  refine ⟨j, hle, k, List.mem_of_find?_eq_some hfind, ?_, ?_⟩
  · rw [shortest, if_neg hx]
    exact congrArg (Option.getD · x.exactDecimal) hd
  · intro m hm
    obtain ⟨near, hnear, hround, hdist⟩ := exists_candidate h hm
    have hfirst := rel_of_find?_eq_some (x.pairwise_neighbours _) (fun _ => le_rfl) hfind hnear
      (by simpa using hround)
    exact hfirst.trans hdist

end ExprLexer.Binary64
