import Mathlib.Data.Nat.Digits.Defs
import Mathlib.Data.List.Forall2
import Mathlib.Data.List.TakeWhile
import DimmBus.CommandLine.Number
import DimmBus.Text.Hex

/-!
# Numbers as they are written

The texts that are read as numbers, by their grammar, and the numbers that they stand for.
-/

namespace DimmBus

/-! ## White space -/

namespace Blank

variable {before cs after : List Char}

/-- A text is what is left of it between blanks. -/
theorem exists_trim (cs : List Char) : ∃ before after, cs = before ++ trim cs ++ after ∧
    (∀ c ∈ before, isBlank c) ∧ ∀ c ∈ after, isBlank c := by
  let rest := cs.dropWhile isBlank
  refine ⟨cs.takeWhile isBlank, (rest.reverse.takeWhile isBlank).reverse, ?_, ?_, ?_⟩
  · have hrest : rest = trim cs ++ (rest.reverse.takeWhile isBlank).reverse := by
      rw [trim, ← List.reverse_append, List.takeWhile_append_dropWhile, List.reverse_reverse]
    rw [List.append_assoc, ← hrest, List.takeWhile_append_dropWhile]
  · intro c hc
    exact List.mem_takeWhile_imp hc
  · intro c hc
    exact List.mem_takeWhile_imp (List.mem_reverse.mp hc)

theorem dropWhile_solid (hne : cs ≠ []) (h : ∀ c ∈ cs, ¬isBlank c) :
    (cs ++ after).dropWhile isBlank = cs ++ after := by
  cases cs with
  | nil => contradiction
  | cons c cs => exact List.dropWhile_cons_of_neg (h c List.mem_cons_self)

theorem trim_solid (hne : cs ≠ []) (h : ∀ c ∈ cs, ¬isBlank c)
    (hbefore : ∀ c ∈ before, isBlank c) (hafter : ∀ c ∈ after, isBlank c) :
    trim (before ++ cs ++ after) = cs := by
  have hback : (cs.reverse ++ []).dropWhile isBlank = cs.reverse ++ [] :=
    dropWhile_solid (by simpa using hne) (by simpa using h)
  have hblank : ∀ c ∈ after.reverse, isBlank c := by simpa using hafter
  rw [List.append_nil] at hback
  rw [trim, List.append_assoc, List.dropWhile_append_of_pos hbefore, dropWhile_solid hne h,
    List.reverse_append, List.dropWhile_append_of_pos hblank, hback, List.reverse_reverse]

end Blank

namespace CommandLine.Number

/-! ## Digits -/

/-- The digits by their values, in small letters and in capitals. -/
def digitRows : List (List Char) := ["0123456789abcdef".toList, "0123456789ABCDEF".toList]

/-- The character is the digit of the base with this value. -/
def IsDigit (base : Nat) (c : Char) (d : Nat) : Prop :=
  d < base ∧ ∃ row ∈ digitRows, row[d]? = some c

variable {base most known n n' d d' : Nat} {c : Char} {cs : List Char} {ds : List Nat}

theorem ascii_of_digit? (h : digit? base c = some d) : c.toNat < 128 := by
  obtain ⟨hvalue, -⟩ := Option.filter_eq_some_iff.mp h
  have hrange : c ≤ '9' ∨ c ≤ 'z' ∨ c ≤ 'Z' := by
    repeat' split at hvalue
    · exact .inl (And.right ‹_›)
    · exact .inr (.inl (And.right ‹_›))
    · exact .inr (.inr (And.right ‹_›))
    · cases hvalue
  have hmost : c.toNat ≤ '9'.toNat ∨ c.toNat ≤ 'z'.toNat ∨ c.toNat ≤ 'Z'.toNat := hrange
  have htop : '9'.toNat < 128 ∧ 'z'.toNat < 128 ∧ 'Z'.toNat < 128 := by decide
  omega

theorem digit?_base (hb : base ≤ 16) :
    digit? base c = some d ↔ d < base ∧ digit? 16 c = some d := by
  simp only [digit?, Option.filter_eq_some_iff, decide_eq_true_eq]
  constructor
  · rintro ⟨h, hd⟩
    exact ⟨hd, h, by omega⟩
  · rintro ⟨hd, h, -⟩
    exact ⟨h, hd⟩

theorem ascii_of_row : ∀ row ∈ digitRows, row.all fun c => c.toNat < 128 := by decide

/-- What either side accepts is ASCII, so that the characters can be gone through. -/
theorem digit?_of_ascii : ∀ k < 128, ∀ d < 16,
    digit? 16 (Char.ofNat k) = some d ↔ ∃ row ∈ digitRows, row[d]? = some (Char.ofNat k) := by
  decide +kernel

theorem digit?_eq_some_iff (hb : base ≤ 16) : digit? base c = some d ↔ IsDigit base c d := by
  have htable (hc : c.toNat < 128) (hd : d < 16) := digit?_of_ascii c.toNat hc d hd
  rw [Char.ofNat_toNat] at htable
  rw [digit?_base hb]
  constructor
  · rintro ⟨hd, h⟩
    exact ⟨hd, (htable (ascii_of_digit? h) (by omega)).mp h⟩
  · rintro ⟨hd, row, hrow, h⟩
    have hc : c.toNat < 128 :=
      of_decide_eq_true (List.all_eq_true.mp (ascii_of_row row hrow) c (List.mem_of_getElem? h))
    exact ⟨hd, (htable hc (by omega)).mpr ⟨row, hrow, h⟩⟩

theorem IsDigit.unique (hb : base ≤ 16) (h : IsDigit base c d) (h' : IsDigit base c d') :
    d = d' := by
  rw [← digit?_eq_some_iff hb] at h h'
  exact Option.some.inj (h.symm.trans h')

/-- Neither white space nor the mark between fields. -/
abbrev Solid (c : Char) : Prop := Blank.isBlank c = false ∧ c ≠ ','

theorem solid_of_row : ∀ row ∈ digitRows, row.all fun c => Solid c ∧ c ≠ '+' := by decide

theorem IsDigit.solid (h : IsDigit base c d) : Solid c ∧ c ≠ '+' := by
  obtain ⟨-, row, hrow, hd⟩ := h
  exact of_decide_eq_true
    (List.all_eq_true.mp (solid_of_row row hrow) c (List.mem_of_getElem? hd))

/-! ## Numerals -/

/-- Digits, the first of them with the most weight, and the number that they make. -/
def Denotes (base : Nat) (cs : List Char) (n : Nat) : Prop :=
  ∃ ds, List.Forall₂ (IsDigit base) cs ds ∧ n = Nat.ofDigits base ds.reverse

/-- The number that digits make behind those of a number. -/
def horner (base known : Nat) (ds : List Nat) : Nat := ds.foldl (fun n d => n * base + d) known

theorem horner_zero (base : Nat) (ds : List Nat) :
    horner base 0 ds = Nat.ofDigits base ds.reverse := by
  rw [horner, Nat.ofDigits_eq_foldr, List.foldr_reverse]
  congr
  funext n d
  rw [Nat.cast_id, Nat.add_comm, Nat.mul_comm]

theorem le_horner (hb : 0 < base) : known ≤ horner base known ds := by
  induction ds generalizing known with
  | nil => exact Nat.le_refl known
  | cons d ds ih =>
      calc known ≤ known * base := Nat.le_mul_of_pos_right known hb
        _ ≤ known * base + d := Nat.le_add_right _ d
        _ ≤ horner base known (d :: ds) := ih

theorem exists_digits_cons :
    (∃ ds, List.Forall₂ (IsDigit base) (c :: cs) ds ∧ n = horner base known ds) ↔
      ∃ d, IsDigit base c d ∧
        ∃ ds, List.Forall₂ (IsDigit base) cs ds ∧ n = horner base (known * base + d) ds := by
  constructor
  · rintro ⟨_, hall, hn⟩
    obtain ⟨d, ds, hd, hds, rfl⟩ := List.forall₂_cons_left_iff.mp hall
    exact ⟨d, hd, ds, hds, hn⟩
  · rintro ⟨d, hd, ds, hds, hn⟩
    exact ⟨d :: ds, .cons hd hds, hn⟩

/-- All digits are read, unless the number gets too large on the way; it never gets smaller. -/
theorem digits_eq_ok_iff (hb : 0 < base ∧ base ≤ 16) (hk : known ≤ most) :
    digits base most known cs = .ok n ↔
      n ≤ most ∧ ∃ ds, List.Forall₂ (IsDigit base) cs ds ∧ n = horner base known ds := by
  -- Every step turns a digit into a part of what is known.
  induction cs generalizing known with
  | nil =>
      simp only [digits, Except.ok.injEq, List.forall₂_nil_left_iff, exists_eq_left]
      constructor
      · rintro rfl
        exact ⟨hk, rfl⟩
      · rintro ⟨-, rfl⟩
        rfl
  | cons c cs ih =>
      rw [exists_digits_cons, digits]
      cases hd : digit? base c with
      | none =>
          simp only [reduceCtorEq, false_iff]
          rintro ⟨-, d, hdigit, -⟩
          rw [(digit?_eq_some_iff hb.2).mpr hdigit] at hd
          cases hd
      | some d =>
          have hdigit := (digit?_eq_some_iff hb.2).mp hd
          by_cases hlarge : most < known * base + d
          · simp only [hlarge, if_true, reduceCtorEq, false_iff]
            rintro ⟨hle, d', hdigit', ds, -, rfl⟩
            have hmore : known * base + d' ≤ horner base (known * base + d') ds := le_horner hb.1
            rw [hdigit'.unique hb.2 hdigit] at hmore hle
            omega
          · simp only [hlarge, if_false]
            rw [ih (Nat.le_of_not_lt hlarge)]
            constructor
            · rintro ⟨hle, hrest⟩
              exact ⟨hle, d, hdigit, hrest⟩
            · rintro ⟨hle, d', hdigit', hrest⟩
              rw [hdigit'.unique hb.2 hdigit] at hrest
              exact ⟨hle, hrest⟩

theorem digits_eq_ok_iff_denotes (hb : 0 < base ∧ base ≤ 16) :
    digits base most 0 cs = .ok n ↔ n ≤ most ∧ Denotes base cs n := by
  simp only [digits_eq_ok_iff hb (Nat.zero_le most), horner_zero, Denotes]

theorem Denotes.exists_digit (h : Denotes base cs n) : ∀ c ∈ cs, ∃ d, IsDigit base c d := by
  obtain ⟨ds, hds, -⟩ := h
  have hpairs : List.Forall₂ (fun c d => (∃ d, IsDigit base c d) ∧ IsDigit base c d) cs ds :=
    hds.imp fun _ d hd => ⟨⟨d, hd⟩, hd⟩
  exact ((List.forall₂_and_left cs ds).mp hpairs).1

theorem not_denotes_plus : ¬Denotes base ('+' :: cs) n := by
  intro h
  obtain ⟨d, hd⟩ := h.exists_digit '+' List.mem_cons_self
  exact hd.solid.2 rfl

/-- How a number is written: digits, and a plus sign in front of them if it is wanted. -/
inductive Numeral (base : Nat) : List Char → Nat → Prop
  | bare {cs : List Char} {n : Nat} (hne : cs ≠ []) (h : Denotes base cs n) : Numeral base cs n
  | signed {cs : List Char} {n : Nat} (hne : cs ≠ []) (h : Denotes base cs n) :
      Numeral base ('+' :: cs) n

theorem numeral_signed : Numeral base ('+' :: cs) n ↔ cs ≠ [] ∧ Denotes base cs n := by
  constructor
  · intro h
    cases h with
    | bare _ h => exact absurd h not_denotes_plus
    | signed hne h => exact ⟨hne, h⟩
  · rintro ⟨hne, h⟩
    exact .signed hne h

theorem numeral_bare (hplus : ∀ rest, cs ≠ '+' :: rest) :
    Numeral base cs n ↔ cs ≠ [] ∧ Denotes base cs n := by
  constructor
  · intro h
    cases h with
    | bare hne h => exact ⟨hne, h⟩
    | signed => exact absurd rfl (hplus _)
  · rintro ⟨hne, h⟩
    exact .bare hne h

theorem read_eq_ok_iff (hb : 0 < base ∧ base ≤ 16) :
    read base most cs = .ok n ↔ n ≤ most ∧ Numeral base cs n := by
  fun_cases read base most cs with
  | case1 => simp [numeral_bare]
  | case2 => simp [numeral_signed]
  | case3 rest hne => simp [numeral_signed, digits_eq_ok_iff_denotes hb, show rest ≠ [] from hne]
  | case4 _ hne _ hplus =>
      simp [numeral_bare hplus, digits_eq_ok_iff_denotes hb, show cs ≠ [] from hne]

/-! ## Literals -/

/-- A number as it is written: decimal, or hexadecimal behind a mark. -/
inductive Literal : List Char → Nat → Prop
  | decimal {cs : List Char} {n : Nat} (h : Numeral 10 cs n) : Literal cs n
  | hexadecimal {cs : List Char} {n : Nat} {x : Char} (hx : x = 'x' ∨ x = 'X')
      (h : Numeral 16 cs n) : Literal ('0' :: x :: cs) n

theorem not_isDigit_mark (hx : c = 'x' ∨ c = 'X') : ¬IsDigit 10 c d := by
  intro h
  rw [← digit?_eq_some_iff (by decide)] at h
  rcases hx with rfl | rfl <;> cases h

theorem literal_marked (hx : c = 'x' ∨ c = 'X') :
    Literal ('0' :: c :: cs) n ↔ Numeral 16 cs n := by
  constructor
  · intro h
    cases h with
    | decimal h =>
        obtain ⟨-, hdenotes⟩ := (numeral_bare (by simp)).mp h
        obtain ⟨d, hd⟩ := hdenotes.exists_digit c (by simp)
        exact absurd hd (not_isDigit_mark hx)
    | hexadecimal _ h => exact h
  · intro h
    exact .hexadecimal hx h

theorem literal_unmarked (hx : ∀ rest, cs ≠ '0' :: 'x' :: rest)
    (hX : ∀ rest, cs ≠ '0' :: 'X' :: rest) : Literal cs n ↔ Numeral 10 cs n := by
  constructor
  · intro h
    cases h with
    | decimal h => exact h
    | hexadecimal h =>
        rcases h with rfl | rfl
        · exact absurd rfl (hx _)
        · exact absurd rfl (hX _)
  · intro h
    exact .decimal h

theorem literal_eq_ok_iff : literal most cs = .ok n ↔ n ≤ most ∧ Literal cs n := by
  fun_cases literal most cs with
  | case1 => rw [literal_marked (.inl rfl), read_eq_ok_iff (by decide)]
  | case2 => rw [literal_marked (.inr rfl), read_eq_ok_iff (by decide)]
  | case3 _ hx hX => rw [literal_unmarked hx hX, read_eq_ok_iff (by decide)]

theorem Literal.unique (h : Literal cs n) (h' : Literal cs n') : n = n' := by
  -- With a bound above both numbers the reader gives either of them, and it gives only one.
  have hn : literal (max n n') cs = .ok n := literal_eq_ok_iff.mpr ⟨Nat.le_max_left n n', h⟩
  have hn' : literal (max n n') cs = .ok n' := literal_eq_ok_iff.mpr ⟨Nat.le_max_right n n', h'⟩
  exact Except.ok.inj (hn.symm.trans hn')

theorem Numeral.solid (h : Numeral base cs n) : cs ≠ [] ∧ ∀ c ∈ cs, Solid c := by
  have hdigits {rest : List Char} (hd : Denotes base rest n) : ∀ c ∈ rest, Solid c := by
    intro c hc
    obtain ⟨d, hdigit⟩ := hd.exists_digit c hc
    exact hdigit.solid.1
  cases h with
  | bare hne h => exact ⟨hne, hdigits h⟩
  | signed _ h => exact ⟨by simp, List.forall_mem_cons.mpr ⟨by decide, hdigits h⟩⟩

theorem Literal.solid (h : Literal cs n) : cs ≠ [] ∧ ∀ c ∈ cs, Solid c := by
  cases h with
  | decimal h => exact h.solid
  | @hexadecimal cs n x hx h =>
      obtain ⟨-, hdigits⟩ := h.solid
      have hzero : Solid '0' := by decide
      have hmark : Solid x := by rcases hx with rfl | rfl <;> decide
      refine ⟨by simp, ?_⟩
      exact List.forall_mem_cons.mpr ⟨hzero, List.forall_mem_cons.mpr ⟨hmark, hdigits⟩⟩

/-- A literal with white space around it. -/
def Written (text : String) (n : Nat) : Prop :=
  ∃ before cs after, text.toList = before ++ cs ++ after ∧ (∀ c ∈ before, Blank.isBlank c) ∧
    (∀ c ∈ after, Blank.isBlank c) ∧ Literal cs n

variable {text : String}

theorem written_iff : Written text n ↔ Literal (Blank.trim text.toList) n := by
  constructor
  · rintro ⟨before, cs, after, htext, hbefore, hafter, h⟩
    have hsolid : ∀ c ∈ cs, ¬Blank.isBlank c := fun c hc => by simp [(h.solid.2 c hc).1]
    rwa [htext, Blank.trim_solid h.solid.1 hsolid hbefore hafter]
  · intro h
    obtain ⟨before, after, htext, hbefore, hafter⟩ := Blank.exists_trim text.toList
    exact ⟨before, _, after, htext, hbefore, hafter, h⟩

/-- A text writes one number at most. -/
theorem Written.unique (h : Written text n) (h' : Written text n') : n = n' :=
  (written_iff.mp h).unique (written_iff.mp h')

theorem word_eq_ok_iff {value : UInt16} :
    word text = .ok value ↔ Written text value.toNat := by
  rw [written_iff, word]
  constructor
  · intro h
    split at h
    · next n hn =>
        obtain ⟨hle, hliteral⟩ := literal_eq_ok_iff.mp hn
        cases h
        rwa [UInt16.toNat_ofNat_of_lt' (Nat.lt_succ_of_le hle)]
    · cases h
  · intro h
    have hn := literal_eq_ok_iff.mpr ⟨Nat.le_of_lt_succ value.toNat_lt, h⟩
    simp only [hn, UInt16.ofNat_toNat]

theorem bind_eq_ok_iff {α β ε : Type} {first : Except ε α} {next : α → Except ε β} {b : β} :
    first >>= next = .ok b ↔ ∃ a, first = .ok a ∧ next a = .ok b := by
  constructor
  · intro h
    cases first with
    | error e => cases h
    | ok a => exact ⟨a, rfl, h⟩
  · rintro ⟨a, rfl, h⟩
    exact h

theorem byte_eq_ok_iff {value : UInt8} : byte text = .ok value ↔ Written text value.toNat := by
  rw [byte, bind_eq_ok_iff]
  constructor
  · rintro ⟨w, hw, h⟩
    split at h
    · cases h
    · next hle =>
        have hlt : w.toNat < UInt8.size := Nat.lt_succ_of_le (Nat.le_of_not_lt hle)
        cases h
        rw [UInt8.toNat_ofNat_of_lt' hlt]
        exact word_eq_ok_iff.mp hw
  · intro h
    have hw : word text = .ok value.toUInt16 := word_eq_ok_iff.mpr (by simpa using h)
    have hle : ¬0xFF < value.toUInt16 := Nat.not_lt_of_le (Nat.le_of_lt_succ value.toNat_lt)
    refine ⟨value.toUInt16, hw, ?_⟩
    rw [if_neg hle, UInt8.toNat_toUInt16, UInt8.ofNat_toNat]
    rfl

/-! ## Lists -/

theorem mapM_eq_ok_iff {α β ε : Type} {f : α → Except ε β} {as : List α} {bs : List β} :
    as.mapM f = .ok bs ↔ as.Forall₂ (fun a b => f a = .ok b) bs := by
  induction as generalizing bs with
  | nil => simp [pure, Except.pure, eq_comm]
  | cons a as ih =>
      rw [List.mapM_cons, List.forall₂_cons_left_iff, bind_eq_ok_iff]
      constructor
      · rintro ⟨b, hb, h⟩
        obtain ⟨rest, hrest, hall⟩ := bind_eq_ok_iff.mp h
        cases hall
        exact ⟨b, rest, hb, ih.mp hrest, rfl⟩
      · rintro ⟨b, rest, hb, hrest, rfl⟩
        exact ⟨b, hb, bind_eq_ok_iff.mpr ⟨rest, ih.mpr hrest, rfl⟩⟩

theorem not_mem_of_mem_splitOn {α : Type} [BEq α] [LawfulBEq α] {x : α} {xs piece : List α}
    (h : piece ∈ xs.splitOn x) : x ∉ piece := by
  induction xs generalizing piece with
  | nil => simp_all
  | cons y ys ih =>
      rw [List.splitOn_cons_eq_if_modifyHead] at h
      split at h
      · rcases List.mem_cons.mp h with rfl | h
        · exact List.not_mem_nil
        · exact ih h
      · next hy =>
          have hne : x ≠ y := by
            rintro rfl
            exact hy BEq.rfl
          cases hs : ys.splitOn x with
          | nil => exact absurd hs (List.splitOn_ne_nil x ys)
          | cons first rest =>
              rw [hs] at h ih
              rcases List.mem_cons.mp h with rfl | h
              · simpa [hne] using ih List.mem_cons_self
              · exact ih (List.mem_cons_of_mem first h)

/-- The fields of a text: what stands between its commas. -/
structure Fields (text : String) (fields : List String) : Prop where
  joined : text = ",".intercalate fields
  ne_nil : fields ≠ []
  free : ∀ field ∈ fields, ',' ∉ field.toList

variable {fields : List String} {values : List UInt8}

theorem fields_split (text : String) :
    Fields text ((text.toList.splitOn ',').map String.ofList) where
  joined := by
    apply String.toList_inj.mp
    simp [String.toList_intercalate, List.map_map, Function.comp_def, List.intercalate_splitOn]
  ne_nil := by simp
  free field h := by
    obtain ⟨piece, hpiece, rfl⟩ := List.mem_map.mp h
    simpa using not_mem_of_mem_splitOn hpiece

theorem Fields.split (h : Fields text fields) :
    (text.toList.splitOn ',').map String.ofList = fields := by
  have hfree : ∀ piece ∈ fields.map String.toList, ',' ∉ piece := by simpa using h.free
  have hne : fields.map String.toList ≠ [] := by simpa using h.ne_nil
  rw [h.joined, String.toList_intercalate, show ",".toList = [','] from rfl,
    List.splitOn_intercalate ',' hfree hne]
  simp [List.map_map, Function.comp_def]

theorem bytes_eq_ok_iff (h : Fields text fields) :
    bytes text = .ok values ↔
      fields.Forall₂ (fun field value => byte field = .ok value) values := by
  rw [bytes, mapM_eq_ok_iff, ← h.split, List.forall₂_map_left_iff]

/-! ## Renderings -/

theorem digitChar_row : ∀ d < 16, "0123456789abcdef".toList[d]? = some d.digitChar := by decide

theorem isDigit_digitChar (hb : base ≤ 16) (hd : d < base) : IsDigit base d.digitChar d :=
  ⟨hd, _, List.mem_cons_self, digitChar_row d (Nat.lt_of_lt_of_le hd hb)⟩

theorem Denotes.concat (h : Denotes base cs n) (hd : IsDigit base c d) :
    Denotes base (cs ++ [c]) (d + base * n) := by
  obtain ⟨ds, hds, rfl⟩ := h
  refine ⟨ds ++ [d], List.rel_append hds (.cons hd .nil), ?_⟩
  rw [List.reverse_concat, Nat.ofDigits_cons]

theorem denotes_toDigits (hb : 1 < base ∧ base ≤ 16) : Denotes base (Nat.toDigits base n) n := by
  induction n using Nat.strong_induction_on with
  | _ n ih =>
      rw [Nat.toDigits_eq_if hb.1]
      split
      · next hlt =>
          exact ⟨[n], .cons (isDigit_digitChar hb.2 hlt) .nil, by simp⟩
      · next hle =>
          have hpos : 0 < base := Nat.lt_of_succ_lt hb.1
          have hless : n / base < n := Nat.div_lt_self (by omega) hb.1
          have hlast := isDigit_digitChar hb.2 (Nat.mod_lt n hpos)
          have hall := (ih (n / base) hless).concat hlast
          rwa [Nat.mod_add_div] at hall

/-- Zeros in front make no difference. -/
theorem Denotes.zeros (hb : 0 < base) (h : Denotes base cs n) (k : Nat) :
    Denotes base (List.replicate k '0' ++ cs) n := by
  obtain ⟨ds, hds, rfl⟩ := h
  have hzero : IsDigit base '0' 0 := ⟨hb, _, List.mem_cons_self, rfl⟩
  have hzeros : List.Forall₂ (IsDigit base) (List.replicate k '0') (List.replicate k 0) := by
    induction k with
    | zero => exact .nil
    | succ k ih => exact .cons hzero ih
  refine ⟨List.replicate k 0 ++ ds, List.rel_append hzeros hds, ?_⟩
  rw [List.reverse_append, List.reverse_replicate, Nat.ofDigits_append_replicate_zero]

theorem capitals_of_row :
    ∀ row ∈ digitRows, row.map Char.toUpper = "0123456789ABCDEF".toList := by
  decide

theorem Denotes.capitals (h : Denotes base cs n) : Denotes base (cs.map Char.toUpper) n := by
  obtain ⟨ds, hds, rfl⟩ := h
  refine ⟨ds, List.forall₂_map_left_iff.mpr (hds.imp ?_), rfl⟩
  rintro c d ⟨hd, row, hrow, hc⟩
  refine ⟨hd, _, List.mem_cons_of_mem _ List.mem_cons_self, ?_⟩
  rw [← capitals_of_row row hrow, List.getElem?_map, hc]
  rfl

theorem denotes_hex (width n : Nat) : Denotes 16 (Hex.digits width n).toList n := by
  rw [Hex.digits, String.toList_ofList]
  exact (denotes_toDigits (by decide)).zeros (by decide) _

theorem hex_ne_nil (width n : Nat) : (Hex.digits width n).toList ≠ [] := by
  simp [Hex.digits, Nat.toDigits_ne_nil]

theorem literal_hex {digits : String} (hne : digits.toList ≠ []) (h : Denotes 16 digits.toList n) :
    Literal ("0x" ++ digits).toList n := by
  rw [String.toList_append]
  exact .hexadecimal (.inl rfl) (.bare hne h)

/-- The texts of a byte: decimal, or hexadecimal behind a mark. Hexadecimal digits may be capitals,
and zeros may stand in front of them. -/
inductive Renders (value : UInt8) : String → Prop
  | decimal : Renders value (toString value.toNat)
  | hexadecimal (width : Nat) : Renders value (Hex.number width value.toNat)
  | capitals (width : Nat) : Renders value ("0x" ++ (Hex.digits width value.toNat).toUpper)

theorem Renders.literal {value : UInt8} (h : Renders value text) :
    Literal text.toList value.toNat := by
  cases h with
  | decimal =>
      rw [Nat.toString_eq_ofList_toDigits, String.toList_ofList]
      exact .decimal (.bare Nat.toDigits_ne_nil (denotes_toDigits (by decide)))
  | hexadecimal width => exact literal_hex (hex_ne_nil width _) (denotes_hex width _)
  | capitals width =>
      have hupper : (Hex.digits width value.toNat).toUpper.toList =
          (Hex.digits width value.toNat).toList.map Char.toUpper := String.toList_map
      refine literal_hex ?_ ?_
      · rw [hupper]
        simpa using hex_ne_nil width value.toNat
      · rw [hupper]
        exact (denotes_hex width value.toNat).capitals

theorem Renders.byte {value : UInt8} (h : Renders value text) : byte text = .ok value :=
  byte_eq_ok_iff.mpr ⟨[], text.toList, [], by simp, by simp, by simp, h.literal⟩

theorem Renders.free {value : UInt8} (h : Renders value text) : ',' ∉ text.toList :=
  fun hmem => (h.literal.solid.2 ',' hmem).2 rfl

theorem bytes_rendered (hne : values ≠ []) (h : values.Forall₂ Renders fields) :
    bytes (",".intercalate fields) = .ok values := by
  have hback :
      fields.Forall₂ (fun field value => ',' ∉ field.toList ∧ byte field = .ok value) values :=
    h.flip.imp fun _ _ hr => ⟨hr.free, hr.byte⟩
  obtain ⟨hfree, hbytes⟩ := (List.forall₂_and_left fields values).mp hback
  have hfields : fields ≠ [] := by
    rintro rfl
    exact hne (List.forall₂_nil_right_iff.mp h)
  exact (bytes_eq_ok_iff ⟨rfl, hfields, hfree⟩).mpr hbytes

/-! ## Reading by the grammar -/

/-- A text is read as a number exactly if the grammar has it as one that fits, and it is one number
at most. A list is read field by field, all of them or none, and what was rendered is read back. -/
theorem reads_what_is_written :
    (∀ text value, word text = .ok value ↔ Written text value.toNat) ∧
    (∀ text value, byte text = .ok value ↔ Written text value.toNat) ∧
    (∀ text n n', Written text n → Written text n' → n = n') ∧
    (∀ text values, bytes text = .ok values ↔ ∃ fields, Fields text fields ∧
      fields.Forall₂ (fun field value => byte field = .ok value) values) ∧
    ∀ values fields, values ≠ [] → values.Forall₂ Renders fields →
      bytes (",".intercalate fields) = .ok values := by
  refine ⟨fun _ _ => word_eq_ok_iff, fun _ _ => byte_eq_ok_iff, fun _ _ _ h h' => h.unique h', ?_,
    fun _ _ hne h => bytes_rendered hne h⟩
  intro text values
  constructor
  · intro h
    exact ⟨_, fields_split text, (bytes_eq_ok_iff (fields_split text)).mp h⟩
  · rintro ⟨fields, hfields, h⟩
    exact (bytes_eq_ok_iff hfields).mpr h

/-- A plus sign and capitals behind the mark, with blanks around them; and two bytes of a list. -/
theorem reads_what_is_written_signed :
    word "\t0X+00fF " = .ok 0xFF ∧ Written "\t0X+00fF " 0xFF ∧
      (∀ n, Written "\t0X+00fF " n → n = 0xFF) ∧
      bytes (",".intercalate ["7", "0x0a"]) = .ok [7, 10] := by
  obtain ⟨hword, -, hunique, -, hrendered⟩ := reads_what_is_written
  have hread : word "\t0X+00fF " = .ok 0xFF := by rfl
  have hwritten : Written "\t0X+00fF " 0xFF := (hword _ _).mp hread
  have hseven : Renders 7 "7" := .decimal
  have hten : Renders 10 "0x0a" := .hexadecimal 2
  have hfields : [7, 10].Forall₂ Renders ["7", "0x0a"] := .cons hseven (.cons hten .nil)
  exact ⟨hread, hwritten, fun n h => hunique _ n _ h hwritten,
    hrendered [7, 10] _ (by simp) hfields⟩

end CommandLine.Number

end DimmBus
