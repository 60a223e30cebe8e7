import DesignToWeb.Binary64.Shortest
import DesignToWeb.Proofs.Binary64.Nearest
import DesignToWeb.Proofs.Binary64.Sign

/-!
# Shortest decimals of thousandths

A number with a fraction that is nearest to a whole number of thousandths has a shortest
decimal of at most three places.  Below `10 ^ 14` the grid of the thousandths has at most
seventeen digits, and one of the two points next to the number reads back.  From there on the
seventeen digits lie closer together than the numbers.
-/

namespace DesignToWeb

/-- A search along a range ends no later than where it would find something. -/
theorem findSome?_range {α : Type} {f : Nat → Option α} {bound index : Nat} (hindex : index < bound)
    (h : (f index).isSome = true) :
    ∃ first ≤ index, ∃ a, f first = some a ∧ (List.range bound).findSome? f = some a := by
  have hmem : index ∈ List.range bound := List.mem_range.mpr hindex
  obtain ⟨a, ha⟩ := Option.isSome_iff_exists.mp (List.findSome?_isSome_iff.mpr ⟨index, hmem, h⟩)
  obtain ⟨before, first, after, heq, hfirst, hnone⟩ := List.findSome?_eq_some_iff.mp ha
  refine ⟨first, ?_, a, hfirst, ha⟩
  have hsorted : (before ++ first :: after).Pairwise (· < ·) := heq ▸ List.pairwise_lt_range
  rw [heq, List.mem_append, List.mem_cons] at hmem
  rcases hmem with hbefore | hsame | hafter
  · rw [hnone index hbefore] at h
    exact Bool.noConfusion h
  · exact Nat.le_of_eq hsame.symm
  · exact Nat.le_of_lt (List.rel_of_pairwise_cons (List.pairwise_append.mp hsorted).2.1 hafter)

namespace Binary64

/-! ## The number of a decimal -/

variable {negative : Bool} {magnitude : Magnitude} {digits : Nat} {exponent : Int}

theorem ofDecimal_eq (hlow : -400 ≤ exponent) (hhigh : exponent ≤ 400) :
    ofDecimal negative digits exponent =
      ofRatio negative (digits * tenTo exponent.toNat) (tenTo (-exponent).toNat) := by
  unfold ofDecimal
  by_cases hzero : digits = 0
  · rw [if_pos hzero, hzero, ofRatio, Nat.zero_mul, Nat.zero_mul, ofUnits_zero, ofUnits_zero]
  · rw [if_neg hzero, if_neg (by omega), if_neg (by omega)]
    split
    · next hpos => rw [Int.toNat_of_nonpos (z := -exponent) (by omega), tenTo_zero]
    · next hneg => rw [Int.toNat_of_nonpos (z := exponent) (by omega), tenTo_zero, Nat.mul_one]

/-- The units of the number nearest to a decimal. -/
def decimalUnits (digits : Nat) (exponent : Int) : Nat :=
  nearestUnits (digits * tenTo exponent.toNat * unitsInOne) (tenTo (-exponent).toNat)

theorem ofDecimal_eq_finite_iff (hlow : -400 ≤ exponent) (hhigh : exponent ≤ 400) :
    ofDecimal negative digits exponent = finite negative magnitude ↔
      decimalUnits digits exponent = magnitude.units := by
  rw [ofDecimal_eq hlow hhigh, ofRatio, ofUnits_eq_finite_iff, decimalUnits]

theorem decimalUnits_mono {digits' : Nat} (h : digits ≤ digits') (exponent : Int) :
    decimalUnits digits exponent ≤ decimalUnits digits' exponent := by
  apply nearestUnits_mono (tenTo_pos _) (tenTo_pos _)
  exact Nat.mul_le_mul_right _ (Nat.mul_le_mul_right _ (Nat.mul_le_mul_right _ h))

theorem decimalUnits_zero (exponent : Int) : decimalUnits 0 exponent = 0 := by
  rw [decimalUnits, Nat.zero_mul, Nat.zero_mul]
  exact ofUnits_eq_finite_iff.mp (ofUnits_zero false _)

/-- Zeros behind the digits take the place of powers of ten. -/
theorem decimalUnits_zeros (digits zeros : Nat) (exponent : Int) :
    decimalUnits (digits * tenTo zeros) exponent = decimalUnits digits (zeros + exponent) := by
  apply nearestUnits_congr (tenTo_pos _) (tenTo_pos _)
  have hplaces : tenTo zeros * tenTo exponent.toNat * tenTo (-(zeros + exponent)).toNat =
      tenTo (zeros + exponent).toNat * tenTo (-exponent).toNat := by
    rw [← tenTo_add, ← tenTo_add, ← tenTo_add]
    congr 1
    omega
  calc digits * tenTo zeros * tenTo exponent.toNat * unitsInOne * tenTo (-(zeros + exponent)).toNat
      = digits * unitsInOne *
          (tenTo zeros * tenTo exponent.toNat * tenTo (-(zeros + exponent)).toNat) := by
        ac_rfl
    _ = digits * tenTo (zeros + exponent).toNat * unitsInOne * tenTo (-exponent).toNat := by
        rw [hplaces]
        ac_rfl

/-- A whole number is read exactly, or as one of at least `2 ^ 53`. -/
theorem unitsInOne_dvd_or_le (whole : Nat) :
    unitsInOne ∣ nearestUnits (whole * unitsInOne) 1 ∨
      1 <<< 1127 ≤ nearestUnits (whole * unitsInOne) 1 := by
  rcases Nat.le_total whole (1 <<< 53) with hle | hge
  · left
    rw [nearestUnits_of_representable (representable_mul_unitsInOne hle)]
    exact Nat.dvd_mul_left _ _
  · right
    have hbound := representable_mul_unitsInOne (Nat.le_refl (1 <<< 53))
    calc 1 <<< 1127 = 1 <<< 53 * unitsInOne := (one_shiftLeft_mul 53 1074).symm
      _ = nearestUnits (1 <<< 53 * unitsInOne) 1 := (nearestUnits_of_representable hbound).symm
      _ ≤ nearestUnits (whole * unitsInOne) 1 := by
        apply nearestUnits_mono Nat.one_pos Nat.one_pos
        exact Nat.mul_le_mul_right _ (Nat.mul_le_mul_right _ hge)

theorem digits_ne_zero (hfraction : ¬ unitsInOne ∣ magnitude.units)
    (h : decimalUnits digits exponent = magnitude.units) : digits ≠ 0 := by
  rintro rfl
  rw [decimalUnits_zero] at h
  exact hfraction (h ▸ Nat.dvd_zero _)

/-- A number with a fraction has decimals. -/
theorem exponent_neg (hfraction : ¬ unitsInOne ∣ magnitude.units)
    (h : decimalUnits digits exponent = magnitude.units) : exponent < 0 := by
  apply Int.not_le.mp
  intro hpos
  have hlt := (unitsInOne_dvd_or_lt magnitude).resolve_left hfraction
  rw [decimalUnits, Int.toNat_of_nonpos (z := -exponent) (by omega), tenTo_zero] at h
  rcases unitsInOne_dvd_or_le (digits * tenTo exponent.toNat) with hdvd | hle
  · rw [h] at hdvd
    exact hfraction hdvd
  · omega

end Binary64

namespace Magnitude

open Binary64

variable {m : Magnitude} {count : Nat} {d : Decimal}

theorem readsBack_iff (hlow : -400 ≤ d.exponent) (hhigh : d.exponent ≤ 400) :
    m.readsBack d = true ↔ decimalUnits d.coefficient d.exponent = m.units := by
  rw [readsBack, beq_iff_eq, ofDecimal_eq_finite_iff hlow hhigh]

/-! ## Points of a grid -/

/-- A magnitude in units of `10 ^ exponent`, as a quotient. -/
def gridNum (m : Magnitude) (exponent : Int) : Nat := m.units * tenTo (-exponent).toNat

def gridDen (exponent : Int) : Nat := unitsInOne * tenTo exponent.toNat

theorem gridDen_pos (exponent : Int) : 0 < gridDen exponent :=
  Nat.mul_pos unitsInOne_pos (tenTo_pos _)

theorem mul_gridDen (coefficient : Nat) (exponent : Int) :
    coefficient * gridDen exponent = coefficient * tenTo exponent.toNat * unitsInOne := by
  rw [gridDen, Nat.mul_left_comm, Nat.mul_comm]

theorem neighbours_eq {exponent : Int} (hexponent : m.leadingPlace - count = exponent) :
    m.neighbours count =
      [⟨roundHalfEven (m.gridNum exponent) (gridDen exponent), exponent⟩,
        ⟨m.gridNum exponent / gridDen exponent, exponent⟩,
        ⟨m.gridNum exponent / gridDen exponent + 1, exponent⟩] := by
  rw [← hexponent]
  rfl

theorem exponent_of_mem_neighbours (hd : d ∈ m.neighbours count) :
    d.exponent = m.leadingPlace - count := by
  obtain ⟨coefficient, _, rfl⟩ := List.mem_map.mp hd
  rfl

variable {coefficient : Nat} {exponent : Int}

theorem decimalUnits_le (h : coefficient * gridDen exponent ≤ m.gridNum exponent) :
    decimalUnits coefficient exponent ≤ m.units := by
  rw [mul_gridDen] at h
  rw [← nearestUnits_of_representable m.representable]
  apply nearestUnits_mono (tenTo_pos _) Nat.one_pos
  rwa [Nat.mul_one]

theorem le_decimalUnits (h : m.gridNum exponent ≤ coefficient * gridDen exponent) :
    m.units ≤ decimalUnits coefficient exponent := by
  rw [mul_gridDen] at h
  rw [← nearestUnits_of_representable m.representable]
  apply nearestUnits_mono Nat.one_pos (tenTo_pos _)
  rwa [Nat.mul_one]

/-- If any point of a grid is read as a magnitude, then one next to the magnitude is. -/
theorem exists_neighbour (hcount : m.leadingPlace - count = exponent)
    (h : decimalUnits coefficient exponent = m.units) :
    ∃ d ∈ m.neighbours count, decimalUnits d.coefficient d.exponent = m.units := by
  rw [neighbours_eq hcount]
  rcases Nat.lt_or_ge (m.gridNum exponent / gridDen exponent) coefficient with hlt | hge
  · refine ⟨⟨m.gridNum exponent / gridDen exponent + 1, exponent⟩, by simp, ?_⟩
    apply Nat.le_antisymm
    · rw [← h]
      exact decimalUnits_mono hlt exponent
    · apply le_decimalUnits
      apply Nat.le_of_lt
      exact Nat.lt_mul_of_div_lt (Nat.lt_succ_self _) (gridDen_pos exponent)
  · refine ⟨⟨m.gridNum exponent / gridDen exponent, exponent⟩, by simp, ?_⟩
    apply Nat.le_antisymm
    · exact decimalUnits_le (Nat.div_mul_le_self _ _)
    · rw [← h]
      exact decimalUnits_mono hge exponent

/-- A number with a fraction that is not below one has all the bits it may have, and is no power
of two. -/
theorem significand_bounds {significand : Nat} (hfraction : ¬ unitsInOne ∣ m.units)
    (hone : unitsInOne ≤ m.units) (heq : m.units = significand <<< excess m.units) :
    1 <<< 52 < significand ∧ significand < 1 <<< 53 := by
  have hplace : 1022 ≤ excess m.units := le_excess hone
  have hlow : 1 <<< 52 ≤ significand := by
    apply Nat.le_of_mul_le_mul_right _ (one_shiftLeft_pos (excess m.units))
    rw [one_shiftLeft_mul, ← shiftLeft_eq_mul, ← heq]
    exact one_shiftLeft_excess_le (by omega)
  have hhigh : significand < 1 <<< 53 := by
    apply Nat.lt_of_mul_lt_mul_right (a := 1 <<< excess m.units)
    rw [one_shiftLeft_mul, ← shiftLeft_eq_mul, ← heq]
    exact lt_one_shiftLeft_excess m.units
  refine ⟨Nat.lt_of_le_of_ne hlow fun hpower ↦ hfraction ?_, hhigh⟩
  obtain ⟨more, hmore⟩ := Nat.exists_eq_add_of_le (by omega : 1074 ≤ 52 + excess m.units)
  rw [heq, ← hpower, ← Nat.shiftLeft_add, hmore, ← one_shiftLeft_mul]
  exact Nat.dvd_mul_right _ _

/-- If the points of a grid lie closer together than the numbers, the nearest point is read as the
magnitude. -/
theorem nearest_neighbour (shift : Nat) (hcount : m.leadingPlace - count = exponent)
    (hfraction : ¬ unitsInOne ∣ m.units) (hshift : 1022 ≤ shift)
    (hunits : 1 <<< (52 + shift) ≤ m.units)
    (hspacing : gridDen exponent < tenTo (-exponent).toNat <<< shift) :
    ∃ d ∈ m.neighbours count, decimalUnits d.coefficient d.exponent = m.units := by
  have hone : unitsInOne ≤ m.units := Nat.le_trans (one_shiftLeft_le (by omega)) hunits
  have hwidth : gridDen exponent < tenTo (-exponent).toNat <<< excess m.units := by
    rw [shiftLeft_eq_mul] at hspacing ⊢
    have hle := one_shiftLeft_le (le_excess hunits)
    exact Nat.lt_of_lt_of_le hspacing (Nat.mul_le_mul_left _ hle)
  rw [neighbours_eq hcount]
  refine ⟨⟨roundHalfEven (m.gridNum exponent) (gridDen exponent), exponent⟩, by simp, ?_⟩
  obtain ⟨significand, heq⟩ := exists_eq_shiftLeft_excess m.representable
  obtain ⟨hlow, hhigh⟩ := significand_bounds hfraction hone heq
  obtain ⟨hup, hdown⟩ := roundHalfEven_near (m.gridNum exponent) (gridDen_pos exponent)
  dsimp only
  generalize roundHalfEven (m.gridNum exponent) (gridDen exponent) = point at hup hdown ⊢
  rw [Nat.add_mul, Nat.one_mul, Nat.mul_assoc, mul_gridDen, gridNum] at hup
  rw [mul_gridDen, gridNum] at hdown
  rw [decimalUnits]
  generalize excess m.units = place at heq hwidth
  rw [heq] at hup hdown ⊢
  -- half a step of the grid is less than half of the last place of the magnitude
  apply nearestUnits_eq_of_near (tenTo_pos _) hlow hhigh
  · omega
  · omega

/-! ## The place of the first digit -/

theorem length_digits_le_iff {n k : Nat} (hk : 0 < k) :
    (Decimal.digits n).length ≤ k ↔ n < tenTo k :=
  Nat.length_toDigits_le_iff (by decide) hk

theorem leadingPlace_le (hlt : m.units < 1 <<< 1127) : m.leadingPlace ≤ 16 := by
  have hlength : (Decimal.digits (m.units / unitsInOne)).length ≤ 16 := by
    apply (length_digits_le_iff (by decide)).mpr
    apply (Nat.div_lt_iff_lt_mul unitsInOne_pos).mpr
    exact Nat.lt_of_lt_of_le hlt (by decide +kernel)
  unfold leadingPlace
  dsimp only
  split <;> omega

theorem le_leadingPlace (h : unitsInOne ≤ 1000 * m.units) : -2 ≤ m.leadingPlace := by
  have hunits : 0 < m.units := by
    have hone := unitsInOne_pos
    omega
  have hlength : (Decimal.digits ((unitsInOne - 1) / m.units)).length ≤ 3 := by
    apply (length_digits_le_iff (by decide)).mpr
    apply (Nat.div_lt_iff_lt_mul hunits).mpr
    exact Nat.lt_of_lt_of_le (Nat.sub_lt unitsInOne_pos Nat.one_pos) h
  unfold leadingPlace
  dsimp only
  split <;> omega

theorem tenTo_mul_le_of_leadingPlace {k : Nat} (hk : 0 < k) (h : k < m.leadingPlace) :
    tenTo k * unitsInOne ≤ m.units := by
  unfold leadingPlace at h
  dsimp only at h
  split at h
  · omega
  · apply (Nat.le_div_iff_mul_le unitsInOne_pos).mp
    apply Nat.le_of_not_lt
    intro hlt
    have hlength := (length_digits_le_iff hk).mpr hlt
    omega

/-! ## Thousandths -/

theorem le_leadingPlace_of_thousandths (hfraction : ¬ unitsInOne ∣ m.units)
    (h : decimalUnits coefficient (-3) = m.units) : -2 ≤ m.leadingPlace := by
  have hone : unitsInOne ≤ 1000 * decimalUnits 1 (-3) := by decide +kernel
  have hcoefficient := Nat.pos_of_ne_zero (digits_ne_zero hfraction h)
  apply le_leadingPlace
  rw [← h]
  exact Nat.le_trans hone (Nat.mul_le_mul_left _ (decimalUnits_mono hcoefficient (-3)))

/-- Some grid of at most seventeen digits and three decimals has a point that is read back. -/
theorem exists_hit (hfraction : ¬ unitsInOne ∣ m.units)
    (h : decimalUnits coefficient (-3) = m.units) :
    ∃ count : Nat, 0 < count ∧ count ≤ 17 ∧ -3 ≤ m.leadingPlace - count ∧
      ∃ d ∈ m.neighbours count, decimalUnits d.coefficient d.exponent = m.units := by
  have hleading := le_leadingPlace_of_thousandths hfraction h
  rcases Int.lt_or_le 14 m.leadingPlace with hlarge | hsmall
  · refine ⟨17, by decide, by decide, by omega, ?_⟩
    have hle := leadingPlace_le ((unitsInOne_dvd_or_lt m).resolve_left hfraction)
    have hplaces : m.leadingPlace - (17 : Nat) = -2 ∨ m.leadingPlace - (17 : Nat) = -1 := by omega
    rcases hplaces with hplaces | hplaces
    · have hunits : tenTo 14 * unitsInOne ≤ m.units :=
        tenTo_mul_le_of_leadingPlace (by decide) (by omega)
      exact nearest_neighbour 1068 hplaces hfraction (by decide)
        (Nat.le_trans (by decide +kernel) hunits) (by decide +kernel)
    · have hunits : tenTo 15 * unitsInOne ≤ m.units :=
        tenTo_mul_le_of_leadingPlace (by decide) (by omega)
      exact nearest_neighbour 1071 hplaces hfraction (by decide)
        (Nat.le_trans (by decide +kernel) hunits) (by decide +kernel)
  · refine ⟨(m.leadingPlace + 3).toNat, by omega, by omega, by omega, ?_⟩
    exact exists_neighbour (by omega) h

theorem shortest_of_hit (hpos : 0 < count) (hle : count ≤ 17)
    (hhit : ∃ d ∈ m.neighbours count, m.readsBack d = true) :
    m.readsBack m.shortest = true ∧ m.leadingPlace - count ≤ m.shortest.exponent ∧
      m.shortest.exponent < m.leadingPlace := by
  have hfind : ((m.neighbours (count - 1 + 1)).find? m.readsBack).isSome = true := by
    rw [Nat.sub_add_cancel hpos]
    exact List.find?_isSome.mpr hhit
  have hbound : count - 1 < 17 := by omega
  obtain ⟨index, hindex, d, hd, hfirst⟩ := findSome?_range
    (f := fun index ↦ (m.neighbours (index + 1)).find? m.readsBack) hbound hfind
  have hshortest : m.shortest = d := by
    rw [shortest, hfirst]
    rfl
  have hexponent := exponent_of_mem_neighbours (List.mem_of_find?_eq_some hd)
  rw [hshortest]
  exact ⟨List.find?_some hd, by omega, by omega⟩

/-- The shortest decimal of a number with a fraction that is nearest to some thousandths. -/
theorem shortest_spec (hfraction : ¬ unitsInOne ∣ m.units)
    (h : decimalUnits coefficient (-3) = m.units) :
    -3 ≤ m.shortest.exponent ∧ m.shortest.exponent < 0 ∧
      decimalUnits m.shortest.coefficient m.shortest.exponent = m.units := by
  obtain ⟨count, hpos, hle, hexponent, d, hd, hreads⟩ := exists_hit hfraction h
  have hplace := leadingPlace_le ((unitsInOne_dvd_or_lt m).resolve_left hfraction)
  have hsame := exponent_of_mem_neighbours hd
  have hhit : m.readsBack d = true := (readsBack_iff (by omega) (by omega)).mpr hreads
  obtain ⟨hshortest, hlow, hhigh⟩ := shortest_of_hit hpos hle ⟨d, hd, hhit⟩
  have hunits := (readsBack_iff (by omega) (by omega)).mp hshortest
  exact ⟨by omega, exponent_neg hfraction hunits, hunits⟩

end Magnitude
end DesignToWeb
