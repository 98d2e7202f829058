import Mathlib
import Script8255.Binary64.Basic

/-! Floating-point numbers are compared as the rational numbers and the infinities they denote. -/

namespace Script8255.Binary64

def rational (negative : Bool) (mantissa : Nat) (exponent : Int) : ℚ :=
  if negative then -(mantissa * 2 ^ exponent) else mantissa * 2 ^ exponent

/-- What a number denotes, with the infinities below and above all else. -/
def Number.extended? : Number → Option (WithBot (WithTop ℚ))
  | nan => none
  | infinite true => some ⊥
  | infinite false => some ⊤
  | finite negative mantissa exponent => some ↑(↑(rational negative mantissa exponent) : WithTop ℚ)

section Units

/-- The number with a positive key, counted in the least positive numbers. -/
def units (key : Nat) : Nat :=
  if key / 2 ^ 52 = 0 then key else (2 ^ 52 + key % 2 ^ 52) * 2 ^ (key / 2 ^ 52 - 1)

theorem units_of_fields {exponent fraction : Nat} (short : fraction < 2 ^ 52) :
    units (exponent * 2 ^ 52 + fraction) =
      if exponent = 0 then fraction else (2 ^ 52 + fraction) * 2 ^ (exponent - 1) := by
  have quotient : (exponent * 2 ^ 52 + fraction) / 2 ^ 52 = exponent := by omega
  have remainder : (exponent * 2 ^ 52 + fraction) % 2 ^ 52 = fraction := by omega
  unfold units
  rw [quotient, remainder]
  by_cases small : exponent = 0
  · simp [small]
  · simp [small]

theorem units_lt_succ (key : Nat) : units key < units (key + 1) := by
  obtain ⟨exponent, fraction, short, rfl⟩ :
      ∃ exponent fraction, fraction < 2 ^ 52 ∧ key = exponent * 2 ^ 52 + fraction :=
    ⟨key / 2 ^ 52, key % 2 ^ 52, by omega, by omega⟩
  rw [units_of_fields short]
  by_cases inner : fraction + 1 < 2 ^ 52
  · rw [Nat.add_assoc, units_of_fields inner]
    by_cases small : exponent = 0
    · simp [small]
    · have positive : 0 < 2 ^ (exponent - 1) := Nat.two_pow_pos _
      rw [if_neg small, if_neg small, ← Nat.add_assoc, Nat.succ_mul]
      omega
  · -- The fraction is full, so the next key has the next exponent.
    have carried : exponent * 2 ^ 52 + fraction + 1 = (exponent + 1) * 2 ^ 52 + 0 := by omega
    rw [carried, units_of_fields (by decide), if_neg (Nat.succ_ne_zero exponent)]
    by_cases small : exponent = 0
    · subst small
      simpa using short
    · have doubled : 2 ^ (exponent + 1 - 1) = 2 * 2 ^ (exponent - 1) := by
        rw [Nat.add_sub_cancel, Nat.mul_comm, ← Nat.pow_succ, Nat.succ_eq_add_one,
          Nat.sub_one_add_one small]
      have positive : 0 < 2 ^ (exponent - 1) := Nat.two_pow_pos _
      rw [if_neg small, doubled]
      calc
        (2 ^ 52 + fraction) * 2 ^ (exponent - 1) < (2 ^ 52 + 2 ^ 52) * 2 ^ (exponent - 1) :=
          Nat.mul_lt_mul_of_pos_right (by omega) positive
        _ = (2 ^ 52 + 0) * (2 * 2 ^ (exponent - 1)) := by ring

theorem units_strictMono : StrictMono units := strictMono_nat_of_lt_succ units_lt_succ

def signedUnits (key : Int) : Int := if key < 0 then -(units key.natAbs) else units key.natAbs

theorem signedUnits_strictMono : StrictMono signedUnits := by
  intro a b less
  unfold signedUnits
  by_cases left : a < 0
  · by_cases right : b < 0
    · have larger := units_strictMono (show b.natAbs < a.natAbs by omega)
      rw [if_pos left, if_pos right]
      omega
    · have positive := units_strictMono (show 0 < a.natAbs by omega)
      rw [if_pos left, if_neg right]
      omega
  · have larger := units_strictMono (show a.natAbs < b.natAbs by omega)
    rw [if_neg left, if_neg (by omega)]
    omega

def least : ℚ := 2 ^ (-1074 : Int)

theorem least_pos : 0 < least := zpow_pos (by norm_num) _

theorem signedUnits_signed (negative : Bool) (key : Nat) :
    signedUnits (if negative then -(key : Int) else key) =
      if negative then -(units key : Int) else units key := by
  unfold signedUnits
  cases negative with
  | false => simp
  | true =>
    by_cases zero : key = 0
    · subst zero
      rfl
    · have below : -(key : Int) < 0 := by omega
      rw [if_pos rfl, if_pos rfl, if_pos below, Int.natAbs_neg, Int.natAbs_natCast]

theorem magnitude_of_fields (exponent : Nat) {fraction : Nat} (short : fraction < 2 ^ 52) :
    (units (exponent * 2 ^ 52 + fraction) * least : ℚ) =
      if exponent = 0 then (fraction : ℚ) * 2 ^ (-1074 : Int)
      else (((1 <<< 52) + fraction : Nat) : ℚ) * 2 ^ ((exponent : Int) - 1075) := by
  rw [units_of_fields short]
  by_cases small : exponent = 0
  · rw [if_pos small, if_pos small]
    rfl
  · have shifted : ((exponent : Int) - 1075) = ((exponent - 1 : Nat) : Int) + -1074 := by omega
    rw [if_neg small, if_neg small, shifted, zpow_add₀ (by norm_num), zpow_natCast, ← mul_assoc,
      Nat.one_shiftLeft, Nat.cast_mul, Nat.cast_pow, Nat.cast_ofNat]
    rfl

end Units

section Keys

def limit : Int := 2047 * 2 ^ 52

/-- What the numbers with a key denote. -/
def worth (key : Int) : WithBot (WithTop ℚ) :=
  if key = limit then ⊤ else if key = -limit then ⊥
  else ↑(↑(signedUnits key * least : ℚ) : WithTop ℚ)

theorem worth_strictMonoOn : StrictMonoOn worth (Set.Icc (-limit) limit) := by
  intro a inside b within less
  obtain ⟨low, -⟩ := inside
  obtain ⟨-, high⟩ := within
  have finite : (signedUnits a * least : ℚ) < signedUnits b * least := by
    have larger : (signedUnits a : ℚ) < signedUnits b := by
      exact_mod_cast signedUnits_strictMono less
    exact mul_lt_mul_of_pos_right larger least_pos
  have notTop : a ≠ limit := by omega
  have notBottom : b ≠ -limit := by omega
  unfold worth
  rw [if_neg notTop, if_neg notBottom]
  by_cases bottom : a = -limit
  · rw [if_pos bottom]
    by_cases top : b = limit
    · rw [if_pos top]
      exact bot_lt_top
    · rw [if_neg top]
      exact WithBot.bot_lt_coe _
  · by_cases top : b = limit
    · rw [if_pos top, if_neg bottom]
      exact WithBot.coe_lt_coe.mpr (WithTop.coe_lt_top _)
    · rw [if_neg top, if_neg bottom]
      exact WithBot.coe_lt_coe.mpr (WithTop.coe_lt_coe.mpr finite)

theorem worth_of_finite (negative : Bool) {key : Nat} (below : key < 2047 * 2 ^ 52) :
    worth (if negative then -(key : Int) else key) =
      ↑(↑(if negative then -(units key * least) else units key * least : ℚ) : WithTop ℚ) := by
  have notTop : (if negative then -(key : Int) else key) ≠ limit := by
    unfold limit
    split <;> omega
  have notBottom : (if negative then -(key : Int) else key) ≠ -limit := by
    unfold limit
    split <;> omega
  unfold worth
  rw [if_neg notTop, if_neg notBottom, signedUnits_signed]
  cases negative <;> simp

theorem exists_fields (x : Float) :
    ∃ (negative : Bool) (exponent fraction : Nat), exponent < 2048 ∧ fraction < 2 ^ 52 ∧
      number x =
        (if exponent = 2047 then if fraction = 0 then .infinite negative else .nan
          else if exponent = 0 then .finite negative fraction (-1074)
          else .finite negative ((1 <<< 52) + fraction) ((exponent : Int) - 1075)) ∧
      key x =
        if 2047 * 2 ^ 52 < exponent * 2 ^ 52 + fraction then none
        else some (if negative then -((exponent * 2 ^ 52 + fraction : Nat) : Int)
          else (exponent * 2 ^ 52 + fraction : Nat)) := by
  have magnitude : x.toBits.toNat % (1 <<< 63) =
      (x.toBits.toNat >>> 52) % 2048 * 2 ^ 52 + x.toBits.toNat % (1 <<< 52) := by
    rw [Nat.shiftRight_eq_div_pow, Nat.one_shiftLeft, Nat.one_shiftLeft]
    omega
  refine ⟨decide (1 <<< 63 ≤ x.toBits.toNat), (x.toBits.toNat >>> 52) % 2048,
    x.toBits.toNat % (1 <<< 52), Nat.mod_lt _ (by decide), Nat.mod_lt _ (by decide), rfl, ?_⟩
  rw [← magnitude]
  unfold key
  by_cases negative : 1 <<< 63 ≤ x.toBits.toNat
  · rw [decide_eq_true negative, if_pos rfl]
    simp only [if_pos negative]
    rfl
  · rw [decide_eq_false negative, if_neg Bool.false_ne_true]
    simp only [if_neg negative]
    rfl

theorem extended?_number (x : Float) : (number x).extended? = (key x).map worth := by
  obtain ⟨negative, exponent, fraction, small, short, denoted, keyed⟩ := exists_fields x
  rw [denoted, keyed]
  by_cases special : exponent = 2047
  · subst special
    by_cases infinite : fraction = 0
    · subst infinite
      rw [if_pos rfl, if_pos rfl, Nat.add_zero, if_neg (Nat.lt_irrefl _)]
      cases negative <;> rfl
    · have beyond : 2047 * 2 ^ 52 < 2047 * 2 ^ 52 + fraction := by omega
      rw [if_pos rfl, if_neg infinite, if_pos beyond]
      rfl
  · have within : ¬ 2047 * 2 ^ 52 < exponent * 2 ^ 52 + fraction := by omega
    have magnitude := magnitude_of_fields exponent short
    rw [if_neg special, if_neg within, Option.map_some, worth_of_finite negative (by omega)]
    by_cases small : exponent = 0
    · rw [if_pos small] at magnitude ⊢
      rw [magnitude]
      rfl
    · rw [if_neg small] at magnitude ⊢
      rw [magnitude]
      rfl

theorem key_mem {x : Float} {k : Int} (keyed : key x = some k) : k ∈ Set.Icc (-limit) limit := by
  obtain ⟨negative, exponent, fraction, small, short, -, found⟩ := exists_fields x
  rw [found] at keyed
  split at keyed
  · cases keyed
  · cases keyed
    unfold limit
    constructor
    · split <;> omega
    · split <;> omega

theorem compare?_eq_some_iff {x y : Float} {order : Ordering} :
    compare? x y = some order ↔
      ∃ a b, (number x).extended? = some a ∧ (number y).extended? = some b ∧
        order.Compares a b := by
  rw [extended?_number, extended?_number]
  unfold compare?
  cases left : key x with
  | none => simp
  | some a =>
    cases right : key y with
    | none => simp
    | some b =>
      have same := worth_strictMonoOn.compares (key_mem left) (key_mem right) (o := order)
      simp only [Option.map_some, Option.some.injEq]
      rw [compare_iff, ← same]
      simp

theorem compare?_swap (x y : Float) : compare? y x = (compare? x y).map Ordering.swap := by
  unfold compare?
  cases key x with
  | none => cases key y <;> rfl
  | some a =>
    cases key y with
    | none => rfl
    | some b => exact congrArg some Std.OrientedCmp.eq_swap

theorem compare?_of_nan {x y : Float} (nan : number x = .nan ∨ number y = .nan) :
    compare? x y = none := by
  apply Option.eq_none_iff_forall_ne_some.mpr
  intro order compared
  obtain ⟨a, b, left, right, -⟩ := compare?_eq_some_iff.mp compared
  rcases nan with undefined | undefined
  · rw [undefined] at left
    cases left
  · rw [undefined] at right
    cases right

theorem nan_of_compare? {x y : Float} (unordered : compare? x y = none) :
    number x = .nan ∨ number y = .nan := by
  have nan {x : Float} (missing : key x = none) : number x = .nan := by
    have denoted := extended?_number x
    rw [missing] at denoted
    rcases shape : number x with _ | negative | ⟨negative, mantissa, exponent⟩
    · rfl
    · cases negative <;> simp [shape, Number.extended?] at denoted
    · simp [shape, Number.extended?] at denoted
  unfold compare? at unordered
  cases left : key x with
  | none => exact Or.inl (nan left)
  | some a =>
    cases right : key y with
    | none => exact Or.inr (nan right)
    | some b => simp [left, right] at unordered

/-- A comparison only looks at the keys, and numbers that it finds equal have the same one. -/
theorem compare?_congr {x y : Float} (equal : compare? x y = some .eq) (z : Float) :
    compare? x z = compare? y z := by
  have same : key x = key y := by
    unfold compare? at equal
    cases left : key x with
    | none => simp [left] at equal
    | some a =>
      cases right : key y with
      | none => simp [left, right] at equal
      | some b =>
        simp only [left, right, Option.some.injEq] at equal
        rw [compare_eq_iff_eq.mp equal]
  unfold compare?
  rw [same]

end Keys

end Script8255.Binary64
