import Mathlib.Data.Nat.Bitwise
import Sqrl.Response

/-! The bitmask of a response holds the flags it was made of, and no others. -/
namespace Sqrl

namespace Flag

theorem index_injective {f g : Flag} (h : f.index = g.index) : f = g := by
  cases f <;> cases g <;> first | rfl | simp [index] at h

theorem mem_all (f : Flag) : f ∈ all := by
  cases f <;> simp [all]

theorem exists_index_eq {i : Nat} (h : i < 9) : ∃ f : Flag, f.index = i := by
  have hall : ∀ i < 9, ∃ f ∈ all, f.index = i := by decide
  obtain ⟨f, -, hf⟩ := hall i h
  exact ⟨f, hf⟩

theorem testBit_bit (f : Flag) (i : Nat) : f.bit.testBit i = decide (f.index = i) := by
  simp [bit, Nat.testBit_two_pow]

theorem isSetIn_natCast (mask : Nat) (f : Flag) : isSetIn mask f = mask.testBit f.index := by
  have h : (mask : Int) / (f.bit : Int) % 2 = ((mask / f.bit % 2 : Nat) : Int) := by norm_cast
  rw [isSetIn, h, Nat.testBit_eq_decide_div_mod_eq, bit]
  norm_cast

theorem testBit_foldl_bit (fs : List Flag) (m i : Nat) :
    (fs.foldl (fun m f => m ||| f.bit) m).testBit i =
      (m.testBit i || fs.any fun f => f.index = i) := by
  induction fs generalizing m with
  | nil => simp
  | cons f fs ih => simp [ih, Nat.testBit_or, testBit_bit, Bool.or_assoc]

end Flag

namespace FlagSet

@[simp] theorem contains_foldl_insert (fs : List Flag) (s : FlagSet) (f : Flag) :
    (fs.foldl insert s).contains f = (decide (f ∈ fs) || s.contains f) := by
  induction fs generalizing s with
  | nil => simp
  | cons g fs ih => simp [ih, Bool.or_assoc, Bool.or_left_comm]

@[simp] theorem contains_ofList (fs : List Flag) (f : Flag) :
    (ofList fs).contains f = decide (f ∈ fs) := by
  simp [ofList, empty]

theorem testBit_mask (s : FlagSet) (f : Flag) : s.mask.testBit f.index = s.contains f := by
  rw [mask, Flag.testBit_foldl_bit, Nat.zero_testBit, Bool.false_or, Bool.eq_iff_iff]
  simp only [toList, List.any_eq_true, List.mem_filter, decide_eq_true_eq]
  constructor
  · intro ⟨g, ⟨_, hg⟩, hindex⟩
    rwa [← Flag.index_injective hindex]
  · intro hf
    exact ⟨f, ⟨Flag.mem_all f, hf⟩, rfl⟩

/-- The mask has no bit but those of its flags. -/
theorem testBit_mask_iff (s : FlagSet) (i : Nat) :
    s.mask.testBit i = true ↔ ∃ f : Flag, f.index = i ∧ s.contains f = true := by
  constructor
  · intro h
    rw [mask, Flag.testBit_foldl_bit, Nat.zero_testBit, Bool.false_or] at h
    obtain ⟨f, hf, hindex⟩ := List.any_eq_true.mp h
    exact ⟨f, of_decide_eq_true hindex, (List.mem_filter.mp hf).2⟩
  · intro ⟨f, hindex, hf⟩
    rw [← hindex, testBit_mask]
    exact hf

theorem mask_lt (s : FlagSet) : s.mask < 2 ^ 9 := by
  rw [mask]
  apply Nat.lt_pow_two_of_testBit
  intro i hi
  have hindex (f : Flag) : f.index ≠ i := by
    cases f <;> simp only [Flag.index] <;> omega
  simp [Flag.testBit_foldl_bit, hindex]

theorem mask_singleton (f : Flag) : (ofList [f]).mask = f.bit := by
  cases f <;> decide

theorem mem_ofMask_mask (s : FlagSet) (f : Flag) :
    f ∈ Flag.ofMask s.mask ↔ s.contains f = true := by
  simp [Flag.ofMask, Flag.mem_all, Flag.isSetIn_natCast, testBit_mask]

/-- The mask is made of the flags of the set, in whatever order they are taken and however often one
of them is. -/
theorem mask_eq_foldl {s : FlagSet} {fs : List Flag} (h : ∀ f, f ∈ fs ↔ s.contains f = true) :
    s.mask = fs.foldl (fun m f => m ||| f.bit) 0 := by
  refine Nat.eq_of_testBit_eq fun i => ?_
  rw [Flag.testBit_foldl_bit, Nat.zero_testBit, Bool.false_or, Bool.eq_iff_iff, testBit_mask_iff,
    List.any_eq_true]
  simp only [decide_eq_true_eq, h]
  exact exists_congr fun f => and_comm

theorem mask_ofList {fs gs : List Flag} (h : ∀ f, f ∈ gs ↔ f ∈ fs) :
    (ofList fs).mask = gs.foldl (fun m f => m ||| f.bit) 0 :=
  mask_eq_foldl fun f => by rw [h, contains_ofList, decide_eq_true_eq]

theorem ofMask_mask (s : FlagSet) : Flag.ofMask s.mask = s.toList := by
  rw [Flag.ofMask, toList]
  exact List.filter_congr fun f _ => by rw [Flag.isSetIn_natCast, testBit_mask]

/-- What stands above the bits of the flags does not matter. -/
theorem isSetIn_emod (mask : Int) (f : Flag) : Flag.isSetIn (mask % 512) f = Flag.isSetIn mask f := by
  have hpos : (f.bit : Int) ≠ 0 := by cases f <;> decide
  obtain ⟨high, hhigh⟩ : (f.bit : Int) * 2 ∣ 512 := by cases f <;> decide
  have hsplit : mask = mask % 512 + f.bit * (2 * (high * (mask / 512))) := by
    rw [← mul_assoc, ← mul_assoc, ← hhigh, Int.emod_add_mul_ediv]
  conv_rhs => rw [hsplit]
  rw [Flag.isSetIn, Flag.isSetIn, Int.add_mul_ediv_left _ _ hpos, Int.add_mul_emod_self_left]

/-- A set made of a mask of any size has the bits of the mask up to that of the last flag. -/
theorem mask_ofMask (mask : Int) : ((ofList (Flag.ofMask mask)).mask : Int) = mask % 512 := by
  obtain ⟨low, hlow⟩ := Int.eq_ofNat_of_zero_le (Int.emod_nonneg mask (by decide : (512 : Int) ≠ 0))
  have hlt : low < 2 ^ 9 := by omega
  rw [hlow, Int.natCast_inj]
  refine Nat.eq_of_testBit_eq fun i => ?_
  rw [Bool.eq_iff_iff, testBit_mask_iff]
  simp only [contains_ofList, decide_eq_true_eq, Flag.ofMask, List.mem_filter, Flag.mem_all, true_and]
  have hset (f : Flag) : Flag.isSetIn mask f = low.testBit f.index := by
    rw [← isSetIn_emod, hlow, Flag.isSetIn_natCast]
  constructor
  · rintro ⟨f, rfl, hf⟩
    rwa [← hset]
  · intro hbit
    have hle : 2 ^ i ≤ low := Nat.ge_two_pow_of_testBit hbit
    have hi : i < 9 := (Nat.pow_lt_pow_iff_right (by decide)).mp (hle.trans_lt hlt)
    obtain ⟨f, rfl⟩ := Flag.exists_index_eq hi
    exact ⟨f, rfl, (hset f).trans hbit⟩

end FlagSet

theorem Response.mem_flags_build (version baseUri nut : String) (suk : Option String)
    (flags : FlagSet) (f : Flag) :
    f ∈ (Response.build version baseUri nut suk flags).flags ↔ flags.contains f = true :=
  flags.mem_ofMask_mask f

/-- The mask of a response depends on which flags are given, and on neither their order nor their
number nor the form in which they are. Its flags are those, each once and by bit, and flags that are
read from a mask of any size make up its bits as far as these stand for flags. -/
theorem Response.tif_given (version baseUri nut : String) (suk : Option String) (fs : List Flag) :
    (buildGiven version baseUri nut suk (.gathered (.ofList fs))).tif =
        (buildGiven version baseUri nut suk (.listed fs)).tif ∧
      (∀ gs : List Flag, (∀ f, f ∈ gs ↔ f ∈ fs) →
        (buildGiven version baseUri nut suk (.listed gs)).tif =
            (buildGiven version baseUri nut suk (.listed fs)).tif ∧
          (buildGiven version baseUri nut suk (.listed fs)).tif =
            (gs.foldl (fun m f => m ||| f.bit) 0 : Nat)) ∧
      (buildGiven version baseUri nut suk (.listed fs)).flags = Flag.all.filter (· ∈ fs) ∧
      ∀ r : Response, ((FlagSet.ofList r.flags).mask : Int) = r.tif % 512 := by
  refine ⟨rfl, fun gs h => ?_, ?_, fun r => FlagSet.mask_ofMask r.tif⟩
  · have hlisted : (FlagSet.ofList fs).mask = gs.foldl (fun m f => m ||| f.bit) 0 :=
      FlagSet.mask_ofList h
    have hsame : (FlagSet.ofList gs).mask = (FlagSet.ofList fs).mask :=
      (FlagSet.mask_ofList fun _ => Iff.rfl).trans hlisted.symm
    exact ⟨congrArg Nat.cast hsame, congrArg Nat.cast hlisted⟩
  · refine (FlagSet.ofMask_mask (.ofList fs)).trans ?_
    exact List.filter_congr fun f _ => FlagSet.contains_ofList fs f

/-- Two flags in two orders, one of them twice. -/
theorem Response.tif_given_twice :
    (∀ f, f ∈ [Flag.ipMatched, .idMatch, .ipMatched] ↔ f ∈ [Flag.idMatch, .ipMatched]) ∧
      (buildGiven "1" "/sqrl" "nut" none (.listed [.ipMatched, .idMatch, .ipMatched])).tif =
        (buildGiven "1" "/sqrl" "nut" none (.listed [.idMatch, .ipMatched])).tif := by
  have hmem : ∀ f, f ∈ [Flag.ipMatched, .idMatch, .ipMatched] ↔ f ∈ [Flag.idMatch, .ipMatched] := by
    intro f
    cases f <;> decide
  exact ⟨hmem, ((Response.tif_given "1" "/sqrl" "nut" none [.idMatch, .ipMatched]).2.1 _ hmem).1⟩

end Sqrl
