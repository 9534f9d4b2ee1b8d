import Mathlib.Data.Set.Card
import DimmBus.Spd.Dump

/-!
# Looking up in dumps

A dump whose addresses ascend is searched by halves; what is found is what the dump holds, and the
image says the same.
-/

namespace DimmBus.SpdDump

/-- The addresses ascend, so that none is there twice. -/
def Ascending (d : SpdDump) : Prop := d.entries.toList.Pairwise fun e e' => e.1 < e'.1

instance (d : SpdDump) : Decidable d.Ascending :=
  inferInstanceAs (Decidable (d.entries.toList.Pairwise fun e e' => e.1 < e'.1))

variable {d : SpdDump} {address : UInt16} {value : UInt8}

/-! ## Search by halves -/

section Search

variable {entries : Array (UInt16 × UInt8)} {i j : Nat} {e e' : UInt16 × UInt8}

theorem lt_of_ascending (ha : entries.toList.Pairwise fun e e' => e.1 < e'.1)
    (hi : entries[i]? = some e) (hj : entries[j]? = some e') (hij : i < j) : e.1 < e'.1 := by
  obtain ⟨hi', rfl⟩ := Array.getElem?_eq_some_iff.mp hi
  obtain ⟨hj', rfl⟩ := Array.getElem?_eq_some_iff.mp hj
  exact List.pairwise_iff_getElem.mp ha i j hi' hj' hij

/-- The search keeps the entry that it looks for between its bounds. -/
theorem lastNotAbove_eq (ha : entries.toList.Pairwise fun e e' => e.1 < e'.1)
    (hi : entries[i]? = some e) {base size : Nat} (hbase : base ≤ i) (hend : i < base + size)
    (hsize : base + size ≤ entries.size) : lastNotAbove entries e.1 base size = i := by
  -- The window from `base` on, of `size` entries, keeps the one at `i` whichever half is left.
  fun_induction lastNotAbove entries e.1 base size with
  | case1 base size hlt half middle entry hm hbelow ih =>
      have himiddle : i < middle := by
        refine Nat.lt_of_not_le fun hle => ?_
        obtain hlt | rfl := Nat.lt_or_eq_of_le hle
        · exact absurd (lt_of_ascending ha hm hi hlt) (UInt16.lt_asymm hbelow)
        · rw [hm] at hi
          cases hi
          exact UInt16.lt_irrefl _ hbelow
      exact ih hbase (by omega) (by omega)
  | case2 base size hlt half middle entry hm habove ih =>
      have hmiddle : middle ≤ i := by
        refine Nat.le_of_not_lt fun hlt => habove ?_
        exact lt_of_ascending ha hi hm hlt
      exact ih hmiddle (by omega) (by omega)
  | case3 base size hlt half middle hm =>
      have hout := Array.getElem?_eq_none_iff.mp hm
      omega
  | case4 base size hle => omega

end Search

theorem mem_of_get? (h : d.get? address = some value) : (address, value) ∈ d.entries := by
  unfold get? at h
  split at h
  · rename_i entry hentry
    split at h
    · rename_i ha
      cases h
      rw [← ha]
      exact Array.mem_of_getElem? hentry
    · cases h
  · cases h

theorem get?_of_mem (ha : d.Ascending) (h : (address, value) ∈ d.entries) :
    d.get? address = some value := by
  obtain ⟨i, hi, he⟩ := Array.getElem_of_mem h
  have hentry : d.entries[i]? = some (address, value) := by rw [Array.getElem?_eq_getElem hi, he]
  have hfound : lastNotAbove d.entries address 0 d.entries.size = i :=
    lastNotAbove_eq ha hentry (Nat.zero_le i) (by omega) (by omega)
  unfold get?
  rw [hfound, hentry]
  exact if_pos rfl

/-- What is looked up is what the dump holds. -/
theorem get?_eq_some_iff (ha : d.Ascending) :
    d.get? address = some value ↔ (address, value) ∈ d.entries :=
  ⟨mem_of_get?, get?_of_mem ha⟩

/-! ## Images -/

/-- An image with the bytes of further entries. -/
def fill (image : Array UInt8) (entries : List (UInt16 × UInt8)) : Array UInt8 :=
  entries.foldl (fun image entry => image.setIfInBounds entry.1.toNat entry.2) image

section Fill

variable {image : Array UInt8} {entries : List (UInt16 × UInt8)}

theorem toImage_eq_fill (d : SpdDump) :
    d.toImage = fill (Array.replicate d.generation.size.toNat 0xFF) d.entries.toList :=
  (Array.foldl_toList ..).symm

theorem size_fill : (fill image entries).size = image.size := by
  induction entries generalizing image with
  | nil => rfl
  | cons entry rest ih => exact ih.trans Array.size_setIfInBounds

theorem getElem?_fill_of_ne (h : ∀ entry ∈ entries, entry.1 ≠ address) :
    (fill image entries)[address.toNat]? = image[address.toNat]? := by
  induction entries generalizing image with
  | nil => rfl
  | cons entry rest ih =>
      obtain ⟨hne, hrest⟩ := List.forall_mem_cons.mp h
      refine (ih hrest).trans (Array.getElem?_setIfInBounds_ne fun he => hne ?_)
      exact UInt16.toNat_inj.mp he

/-- As no address is there twice, no byte is written over. -/
theorem getElem?_fill_of_mem (ha : entries.Pairwise fun e e' => e.1 < e'.1)
    (h : (address, value) ∈ entries) (hlt : address.toNat < image.size) :
    (fill image entries)[address.toNat]? = some value := by
  induction entries generalizing image with
  | nil => cases h
  | cons entry rest ih =>
      obtain ⟨hfirst, hrest⟩ := List.pairwise_cons.mp ha
      obtain rfl | hmem := List.mem_cons.mp h
      · have hne : ∀ entry ∈ rest, entry.1 ≠ address := fun entry he =>
          (UInt16.ne_of_lt (hfirst entry he)).symm
        exact (getElem?_fill_of_ne hne).trans (Array.getElem?_setIfInBounds_self_of_lt hlt)
      · exact ih hrest hmem (by rwa [Array.size_setIfInBounds])

end Fill

theorem size_toImage (d : SpdDump) : d.toImage.size = d.generation.size.toNat := by
  rw [toImage_eq_fill, size_fill, Array.size_replicate]

/-- The image has the bytes that are looked up, and shows nothing where none is found. -/
theorem getElem?_toImage (ha : d.Ascending) (hlt : address < d.generation.size) :
    d.toImage[address.toNat]? = some ((d.get? address).getD 0xFF) := by
  have hlt := UInt16.lt_iff_toNat_lt.mp hlt
  have hsize : address.toNat < (Array.replicate d.generation.size.toNat (0xFF : UInt8)).size := by
    rwa [Array.size_replicate]
  rw [toImage_eq_fill]
  cases hg : d.get? address with
  | some value => exact getElem?_fill_of_mem ha (Array.mem_toList_iff.mpr (mem_of_get? hg)) hsize
  | none =>
      have hne : ∀ entry ∈ d.entries.toList, entry.1 ≠ address := by
        rintro ⟨_, value⟩ he rfl
        rw [get?_of_mem ha (Array.mem_toList_iff.mp he)] at hg
        cases hg
      rw [getElem?_fill_of_ne hne, Array.getElem?_eq_getElem hsize, Array.getElem_replicate]
      rfl

/-! ## Agreement -/

/-- As many addresses are found as bytes were read. -/
theorem ncard_found (ha : d.Ascending) :
    {address | (d.get? address).isSome}.ncard = d.length := by
  have hfound : {address | (d.get? address).isSome} =
      ↑(d.entries.toList.map Prod.fst).toFinset := by
    ext address
    simp [Option.isSome_iff_exists, get?_eq_some_iff ha]
  have hnodup : (d.entries.toList.map Prod.fst).Nodup :=
    List.pairwise_map.mpr (ha.imp UInt16.ne_of_lt)
  rw [hfound, Set.ncard_coe_finset, List.toFinset_card_of_nodup hnodup, List.length_map]
  rfl

/-- Of a dump whose addresses ascend, exactly the entries are found. Its image is as large as the
module and has a byte for each address, the one that is found or `0xFF`; and the length of the
dump is the number of addresses at which something is found. -/
theorem lookup_and_image_agree (ha : d.Ascending) :
    (∀ address value, d.get? address = some value ↔ (address, value) ∈ d.entries) ∧
    d.toImage.size = d.generation.size.toNat ∧
    (∀ address < d.generation.size,
      d.toImage[address.toNat]? = some ((d.get? address).getD 0xFF)) ∧
    d.length = {address | (d.get? address).isSome}.ncard :=
  ⟨fun _ _ => get?_eq_some_iff ha, size_toImage d, fun _ hlt => getElem?_toImage ha hlt,
    (ncard_found ha).symm⟩

/-- A gap between two bytes, and a byte at the last address of the module. -/
theorem lookup_and_image_agree_gapped :
    let d : SpdDump := ⟨0, .ddr3, #[(0, 0x92), (2, 0x0B), (0xFF, 0x01)]⟩
    d.Ascending ∧ d.get? 2 = some 0x0B ∧ d.get? 1 = none ∧ d.toImage.size = 256 ∧
      d.toImage[1]? = some 0xFF ∧ d.toImage[0xFF]? = some 0x01 ∧
      {address | (d.get? address).isSome}.ncard = 3 := by
  intro d
  have ha : d.Ascending := by decide
  obtain ⟨hfound, hsize, himage, hlength⟩ := lookup_and_image_agree ha
  have hlast : d.get? 0xFF = some 0x01 := (hfound 0xFF 0x01).mpr (by simp [d])
  have hgap : d.get? 1 = none := by
    cases h : d.get? 1 with
    | none => rfl
    | some value => simpa [d] using (hfound 1 value).mp h
  have himageGap := himage 1 (by decide)
  have himageLast := himage 0xFF (by decide)
  rw [hgap] at himageGap
  rw [hlast] at himageLast
  exact ⟨ha, (hfound 2 0x0B).mpr (by simp [d]), hgap, hsize, himageGap, himageLast,
    hlength.symm⟩

end DimmBus.SpdDump
