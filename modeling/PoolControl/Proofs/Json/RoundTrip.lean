import Mathlib.Tactic.IntervalCases
import Mathlib.Tactic.SplitIfs
import PoolControl.Json.Reader
import PoolControl.Json.Writer

/-! # Reading back what was written

A datum is plain if it has no sources of other texts in it and its integers fit 64-bit words. What
is written of a plain datum is read as that datum (`Json.read?_write`), so plain data are told apart
by their texts (`Json.write_inj`).

The proof follows the datum. What stands before the rest of the text is read off, whatever the rest
is; only after a number it may not go on like one (`Json.EndsNumber`). -/

namespace PoolControl

/-! ### Numerals -/

namespace Text

theorem isDecimal_iff {c : Char} : isDecimal c = true ↔ c.isDigit = true := by
  simp only [isDecimal, Char.isDigit, Bool.and_eq_true, decide_eq_true_eq]
  rfl

theorem isDecimal_of_mem_toDigits {n : Nat} {c : Char} (h : c ∈ Nat.toDigits 10 n) :
    isDecimal c = true :=
  isDecimal_iff.mpr (Nat.isDigit_of_mem_toDigits (by decide) (by decide) h)

theorem digit?_of_isDecimal {c : Char} (h : isDecimal c = true) :
    digit? 10 c = some (c.toNat - 48) := by
  simp only [isDecimal, Bool.and_eq_true, decide_eq_true_eq] at h
  have hle : c.toNat ≤ 57 := h.2
  have hlt : c.toNat - 48 < 10 := by omega
  simp [digit?, hexDigit?, h, hlt]

/-- **A numeral has the value that it was written for.** -/
theorem natural?_toDigits (n : Nat) : natural? (Nat.toDigits 10 n) = some n := by
  have hdigits : ∀ cs : List Char, (∀ c ∈ cs, isDecimal c = true) →
      cs.mapM (digit? 10) = some (cs.map (·.toNat - 48)) := by
    intro cs h
    induction cs with
    | nil => rfl
    | cons c cs ih =>
      rw [List.forall_mem_cons] at h
      simp [List.mapM_cons, digit?_of_isDecimal h.1, ih h.2]
  have hvalue : ∀ (cs : List Char) (m : Nat),
      (cs.map (·.toNat - 48)).foldl (fun n d => n * 10 + d) m = Nat.ofDigitChars 10 cs m := by
    intro cs
    induction cs with
    | nil => simp
    | cons c cs ih =>
      intro m
      rw [List.map_cons, List.foldl_cons, ih, Nat.ofDigitChars_cons, Nat.mul_comm]
      rfl
  rw [natural?, if_neg (by simp [Nat.toDigits_ne_nil]),
    hdigits _ fun c hc => isDecimal_of_mem_toDigits hc]
  simp only [Option.map_some, valueOf, hvalue, Nat.ofDigitChars_ten_toDigits]

theorem head?_toDigits {n : Nat} (h : n ≠ 0) : (Nat.toDigits 10 n).head? ≠ some '0' := by
  induction n using Nat.strongRecOn with
  | _ n ih =>
    by_cases hlt : n < 10
    · rw [Nat.toDigits_of_lt_base hlt]
      interval_cases n <;> first | exact absurd rfl h | decide
    · rw [Nat.toDigits_of_base_le (by decide) (by omega), List.head?_append]
      have hdiv := ih (n / 10) (by omega) (by omega)
      cases hhead : (Nat.toDigits 10 (n / 10)).head? with
      | none => exact absurd (List.head?_eq_none_iff.mp hhead) Nat.toDigits_ne_nil
      | some c =>
        rw [hhead] at hdiv
        simpa using hdiv

end Text

namespace Json

/-! ### Texts -/

/-- The elements read with one more in front. -/
def before (piece : Piece) (read : List Piece × List Char) : List Piece × List Char :=
  (piece :: read.1, read.2)

theorem readPieces_letter {e c : Char} (rest : List Char) (hu : e ≠ 'u')
    (he : escaped? e = some c) :
    readPieces ('\\' :: e :: rest) = (readPieces rest).map (before (.char c)) := by
  rw [readPieces]
  · rw [he]
    cases readPieces rest <;> rfl
  · intro a b c d rest h _
    exact hu h

theorem readPieces_unit {a b c d : Char} {unit : Nat} (rest : List Char)
    (h : [a, b, c, d].mapM Text.hexDigit? = some [0, 0, unit / 16, unit % 16]) :
    readPieces ('\\' :: 'u' :: a :: b :: c :: d :: rest) =
      (readPieces rest).map (before (pieceOfUnit unit)) := by
  have hvalue : Text.valueOf 16 [0, 0, unit / 16, unit % 16] = unit := by
    simp only [Text.valueOf, List.foldl_cons, List.foldl_nil]
    omega
  rw [readPieces, h, Option.map_some, hvalue]
  cases readPieces rest <;> rfl

theorem readPieces_self {c : Char} (rest : List Char) (hquote : c ≠ '"') (hslash : c ≠ '\\')
    (h : 0x20 ≤ c.toNat) : readPieces (c :: rest) = (readPieces rest).map (before (.char c)) := by
  rw [readPieces]
  · rw [if_neg hquote, if_neg (by simp [hslash]; omega)]
    cases readPieces rest <;> rfl
  · intro a b c d rest h _
    exact absurd h hslash
  · intro e rest h _
    exact absurd h hslash

theorem hexDigit?_digitChar : ∀ n < 16, Text.hexDigit? (Nat.digitChar n) = some n := by decide

/-- **What a character was escaped to** is read as that character. -/
theorem readPieces_escape (c : Char) (rest : List Char) :
    readPieces (escape c ++ rest) = (readPieces rest).map (before (.char c)) := by
  have hletter : ∀ e, e ≠ 'u' → escaped? e = some c →
      readPieces ('\\' :: e :: rest) = (readPieces rest).map (before (.char c)) :=
    fun e hu he => readPieces_letter rest hu he
  have hnat : ∀ n, c.toNat = n → c = Char.ofNat n := by
    intro n hn
    rw [← hn, Char.ofNat_toNat]
  unfold escape
  split_ifs with hquote hslash h8 h9 h10 h12 h13 hcontrol
  · exact hletter '"' (by decide) (by rw [hquote]; decide)
  · exact hletter '\\' (by decide) (by rw [hslash]; decide)
  · exact hletter 'b' (by decide) (by rw [hnat _ h8]; decide)
  · exact hletter 't' (by decide) (by rw [hnat _ h9]; decide)
  · exact hletter 'n' (by decide) (by rw [hnat _ h10]; decide)
  · exact hletter 'f' (by decide) (by rw [hnat _ h12]; decide)
  · exact hletter 'r' (by decide) (by rw [hnat _ h13]; decide)
  · have hpiece : pieceOfUnit c.toNat = .char c := by
      rw [pieceOfUnit, if_neg (by omega), Char.ofNat_toNat]
    rw [← hpiece]
    refine readPieces_unit rest ?_
    have hhigh := hexDigit?_digitChar (c.toNat / 16) (by omega)
    have hlow := hexDigit?_digitChar (c.toNat % 16) (by omega)
    have hzero : Text.hexDigit? '0' = some 0 := by decide
    simp [List.mapM_cons, hhigh, hlow, hzero]
  · exact readPieces_self rest hquote hslash (by omega)

/-- **A text is read back** after its opening quote. -/
theorem readPieces_writeText (cs rest : List Char) :
    readPieces (cs.flatMap escape ++ '"' :: rest) = some (cs.map .char, rest) := by
  induction cs with
  | nil => simp [readPieces]
  | cons c cs ih =>
    rw [List.flatMap_cons, List.append_assoc, readPieces_escape, ih]
    rfl

theorem joinPieces_map_char (cs : List Char) : joinPieces (cs.map .char) = some cs := by
  induction cs with
  | nil => rfl
  | cons c cs ih => rw [List.map_cons, joinPieces, ih]; rfl

theorem writeText_append (s : String) (rest : List Char) :
    writeText s ++ rest = '"' :: (s.toList.flatMap escape ++ '"' :: rest) := by
  simp [writeText]

theorem readText_writeText (s : String) (rest : List Char) :
    readText (s.toList.flatMap escape ++ '"' :: rest) = some (.text s, rest) := by
  simp [readText, readPieces_writeText, joinPieces_map_char]

theorem readName_writeText (s : String) (rest : List Char) :
    readName (s.toList.flatMap escape ++ '"' :: rest) = some (some s, rest) := by
  simp [readName, readPieces_writeText, joinPieces_map_char]

/-! ### Numbers -/

/-- The text does not go on like a number. -/
def EndsNumber (rest : List Char) : Prop :=
  ∀ c ∈ rest.head?, Text.isDecimal c = false ∧ c ≠ '.' ∧ c ≠ 'e' ∧ c ≠ 'E'

theorem endsNumber_nil : EndsNumber [] := by
  intro c hc
  cases hc

theorem endsNumber_cons {c : Char} {rest : List Char}
    (h : Text.isDecimal c = false ∧ c ≠ '.' ∧ c ≠ 'e' ∧ c ≠ 'E') : EndsNumber (c :: rest) := by
  intro c' hc
  cases hc
  exact h

variable {rest : List Char}

theorem takeWhile_numeral (n : Nat) (h : EndsNumber rest) :
    (Nat.toDigits 10 n ++ rest).takeWhile Text.isDecimal = Nat.toDigits 10 n := by
  rw [List.takeWhile_append_of_pos fun c hc => Text.isDecimal_of_mem_toDigits hc]
  cases rest with
  | nil => simp
  | cons c rest =>
    obtain ⟨hc, -⟩ := h c rfl
    simp [hc]

theorem readFraction_of_ends (h : EndsNumber rest) : readFraction rest = some (false, rest) := by
  unfold readFraction
  split
  · exact absurd rfl (h '.' rfl).2.1
  · rfl

theorem readExponent_of_ends (h : EndsNumber rest) : readExponent rest = some (false, rest) := by
  cases rest with
  | nil => rfl
  | cons c rest =>
    obtain ⟨-, -, he, hE⟩ := h c rfl
    simp [readExponent, he, hE]

theorem leading_toDigits (n : Nat) :
    ((Nat.toDigits 10 n).head? == some '0' && (Nat.toDigits 10 n).length != 1) = false := by
  by_cases h : n = 0
  · subst h
    rfl
  · have hhead := Text.head?_toDigits h
    simp [hhead]

theorem readNumber_numeral (n : Nat) (h : EndsNumber rest) :
    readNumber (Nat.toDigits 10 n ++ rest) =
      some (integerDatum false n (Nat.toDigits 10 n), rest) := by
  have hsign : ((Nat.toDigits 10 n ++ rest).head? == some '-') = false := by
    rw [List.head?_append]
    cases hhead : (Nat.toDigits 10 n).head? with
    | none => exact absurd (List.head?_eq_none_iff.mp hhead) Nat.toDigits_ne_nil
    | some c =>
      have hc := Text.isDecimal_of_mem_toDigits (List.mem_of_mem_head? hhead)
      have hne : c ≠ '-' := by
        rintro rfl
        cases hc
      simpa using hne
  unfold readNumber
  simp only [hsign, Bool.false_eq_true, if_false, takeWhile_numeral n h, Text.natural?_toDigits,
    leading_toDigits, List.drop_left, readFraction_of_ends h, readExponent_of_ends h, Bind.bind,
    Option.bind_some, Bool.or_self]
  simp

theorem readNumber_minus (n : Nat) (h : EndsNumber rest) :
    readNumber ('-' :: (Nat.toDigits 10 n ++ rest)) =
      some (integerDatum true n ('-' :: Nat.toDigits 10 n), rest) := by
  have hsign : (('-' :: (Nat.toDigits 10 n ++ rest)).head? == some '-') = true := rfl
  have htake : ('-' :: (Nat.toDigits 10 n ++ rest)).take
      (('-' :: (Nat.toDigits 10 n ++ rest)).length - rest.length) =
        '-' :: Nat.toDigits 10 n := by
    rw [List.length_cons, List.length_append,
      show (Nat.toDigits 10 n).length + rest.length + 1 - rest.length =
        (Nat.toDigits 10 n).length + 1 by omega]
    simp
  unfold readNumber
  simp only [hsign, if_true, List.drop_one, List.tail_cons, takeWhile_numeral n h,
    Text.natural?_toDigits, leading_toDigits, List.drop_left, readFraction_of_ends h,
    readExponent_of_ends h, Bind.bind, Option.bind_some, Bool.or_self, htake]
  simp

/-- **An integer of a 64-bit word is read back.** -/
theorem readNumber_writeInteger {n : Int} (hmin : Int64.minValue.toInt ≤ n)
    (hmax : n < UInt64.size) (h : EndsNumber rest) :
    readNumber (writeInteger n ++ rest) = some (.integer n, rest) := by
  cases n with
  | ofNat n =>
    have hlt : n < UInt64.size := Int.ofNat_lt.mp hmax
    simp only [writeInteger, readNumber_numeral n h, integerDatum, Bool.false_eq_true, if_false,
      if_pos hlt]
    rfl
  | negSucc n =>
    have hneg : Int.negSucc n = -((n + 1 : Nat) : Int) := rfl
    rw [hneg] at hmin ⊢
    have hkept : ¬ (n + 1 = 0 ∨ -((n + 1 : Nat) : Int) < Int64.minValue.toInt) := by omega
    have hwrite : writeInteger (-((n + 1 : Nat) : Int)) = '-' :: Nat.toDigits 10 (n + 1) := rfl
    rw [hwrite, List.cons_append, readNumber_minus (n + 1) h, integerDatum, if_pos rfl,
      if_neg hkept]

/-! ### Values -/

mutual

/-- There are no sources of other texts in the datum, and its integers fit 64-bit words. -/
def IsPlain : Datum → Prop
  | .raw _ => False
  | .integer n => Int64.minValue.toInt ≤ n ∧ n < UInt64.size
  | .list items => ArePlain items
  | .table members => HavePlain members
  | _ => True

/-- All items are plain. -/
def ArePlain : List Datum → Prop
  | [] => True
  | item :: items => IsPlain item ∧ ArePlain items

/-- All members have plain values. -/
def HavePlain : List (String × Datum) → Prop
  | [] => True
  | (_, value) :: members => IsPlain value ∧ HavePlain members

end

/-- What a value begins with is no blank and closes nothing. -/
def Opens (c : Char) : Prop := isSpace c = false ∧ c ≠ ']' ∧ c ≠ '}'

instance (c : Char) : Decidable (Opens c) := by
  unfold Opens; infer_instance

theorem skip_of_opens {c : Char} (h : Opens c) (rest : List Char) :
    skip (c :: rest) = c :: rest := by
  simp [skip, h.1]

theorem opens_of_isDecimal {c : Char} (h : Text.isDecimal c = true) :
    Opens c ∧ c ≠ '"' ∧ c ≠ '{' ∧ c ≠ '[' ∧ c ≠ 't' ∧ c ≠ 'f' ∧ c ≠ 'n' := by
  simp only [Opens]
  refine ⟨⟨?_, ?_, ?_⟩, ?_, ?_, ?_, ?_, ?_, ?_⟩
  · simp only [Text.isDecimal, Bool.and_eq_true, decide_eq_true_eq] at h
    simp only [isSpace, Bool.or_eq_false_iff, beq_eq_false_iff_ne]
    refine ⟨⟨⟨?_, ?_⟩, ?_⟩, ?_⟩ <;> (rintro rfl; revert h; decide)
  all_goals
    rintro rfl
    cases h

theorem exists_writeInteger_eq (n : Int) : ∃ c cs, writeInteger n = c :: cs ∧
    Opens c ∧ c ≠ '"' ∧ c ≠ '{' ∧ c ≠ '[' ∧ c ≠ 't' ∧ c ≠ 'f' ∧ c ≠ 'n' := by
  cases n with
  | ofNat n =>
    obtain ⟨c, cs, hcs⟩ := List.exists_cons_of_ne_nil (Nat.toDigits_ne_nil (n := n) (b := 10))
    have hc : Text.isDecimal c = true :=
      Text.isDecimal_of_mem_toDigits (n := n) (by rw [hcs]; exact List.mem_cons_self)
    exact ⟨c, cs, hcs, opens_of_isDecimal hc⟩
  | negSucc n => exact ⟨'-', _, rfl, by decide⟩

theorem exists_writeValue_eq {d : Datum} (h : IsPlain d) :
    ∃ c cs, writeValue d = c :: cs ∧ Opens c := by
  cases d with
  | null => exact ⟨_, _, rfl, by decide⟩
  | bool b => cases b <;> exact ⟨_, _, rfl, by decide⟩
  | integer n =>
    obtain ⟨c, cs, hcs, hc, -⟩ := exists_writeInteger_eq n
    exact ⟨c, cs, hcs, hc⟩
  | raw source => exact h.elim
  | text s => exact ⟨_, _, rfl, by decide⟩
  | list items => exact ⟨_, _, rfl, by decide⟩
  | table members => exact ⟨_, _, rfl, by decide⟩

theorem writeItems_cons_cons (item next : Datum) (items : List Datum) :
    writeItems (item :: next :: items) = writeValue item ++ ',' :: writeItems (next :: items) := rfl

theorem writeMembers_cons_cons (member next : String × Datum) (members : List (String × Datum)) :
    writeMembers (member :: next :: members) =
      writeText member.1 ++ ':' :: (writeValue member.2 ++ ',' :: writeMembers (next :: members)) :=
  rfl

theorem exists_writeItems_eq {item : Datum} {items : List Datum} (h : ArePlain (item :: items)) :
    ∃ c cs, writeItems (item :: items) = c :: cs ∧ Opens c := by
  obtain ⟨c, cs, hcs, hc⟩ := exists_writeValue_eq h.1
  cases items with
  | nil => exact ⟨c, _, by rw [writeItems, hcs]; rfl, hc⟩
  | cons next items => exact ⟨c, _, by rw [writeItems_cons_cons, hcs]; rfl, hc⟩

theorem exists_writeMembers_eq (name : String) (value : Datum) (members : List (String × Datum)) :
    ∃ cs, writeMembers ((name, value) :: members) = '"' :: cs := by
  cases members with
  | nil => exact ⟨_, rfl⟩
  | cons next members => exact ⟨_, rfl⟩

theorem readValue_integer {n : Int} (h : IsPlain (.integer n)) (fuel : Nat)
    (hends : EndsNumber rest) :
    readValue (fuel + 1) (writeInteger n ++ rest) = some (.integer n, rest) := by
  obtain ⟨hmin, hmax⟩ := h
  obtain ⟨c, cs, hcs, hc, hquote, hbrace, hbracket, ht, hf, hn⟩ := exists_writeInteger_eq n
  rw [← readNumber_writeInteger hmin hmax hends, hcs, List.cons_append, readValue,
    skip_of_opens hc]
  simp [hquote, hbrace, hbracket, ht, hf, hn]

theorem mapM_eq_some {f : Option String × Datum → Option (String × Datum)}
    (hf : ∀ e : String × Datum, f (some e.1, e.2) = some e) (members : List (String × Datum)) :
    (members.map fun e => (some e.1, e.2)).mapM f = some members := by
  induction members with
  | nil => rfl
  | cons e members ih => simp [List.mapM_cons, hf, ih]

theorem tableDatum_map_some (members : List (String × Datum)) (source : List Char) :
    tableDatum (members.map fun e => (some e.1, e.2)) source = .table members := by
  unfold tableDatum
  rw [mapM_eq_some fun _ => rfl]

mutual

/-- **A plain datum is read back**, whatever follows it. -/
theorem readValue_writeValue : ∀ (d : Datum) (fuel : Nat) (rest : List Char), IsPlain d →
    (writeValue d).length ≤ fuel → EndsNumber rest →
      readValue fuel (writeValue d ++ rest) = some (d, rest)
  | d, 0, rest, h, hfuel, _ => by
    obtain ⟨c, cs, hcs, -⟩ := exists_writeValue_eq h
    rw [hcs] at hfuel
    cases hfuel
  | .null, fuel + 1, rest, _, _, _ => by simp [writeValue, readValue, skip, isSpace]
  | .bool true, fuel + 1, rest, _, _, _ => by simp [writeValue, readValue, skip, isSpace]
  | .bool false, fuel + 1, rest, _, _, _ => by simp [writeValue, readValue, skip, isSpace]
  | .integer n, fuel + 1, rest, h, _, hends => readValue_integer h fuel hends
  | .raw source, fuel + 1, rest, h, _, _ => h.elim
  | .text s, fuel + 1, rest, _, _, _ => by
    have hopens : Opens '"' := by decide
    rw [writeValue, writeText_append, readValue, skip_of_opens hopens]
    simp only [if_true]
    exact readText_writeText s rest
  | .list [], fuel + 1, rest, _, _, _ => by
    simp [writeValue, writeItems, readValue, skip, isSpace]
  | .list (item :: items), fuel + 1, rest, h, hfuel, _ => by
    have hitems := readItems_writeItems item items fuel rest h (by simpa [writeValue] using hfuel)
    obtain ⟨c, cs, hcs, hc⟩ := exists_writeItems_eq h
    rw [hcs, List.cons_append] at hitems
    rw [writeValue, List.cons_append, hcs, List.cons_append, readValue,
      skip_of_opens (show Opens '[' by decide)]
    simp [skip_of_opens hc, hc.2.1, hitems]
  | .table [], fuel + 1, rest, _, _, _ => by
    simp [writeValue, writeMembers, readValue, skip, isSpace]
  | .table ((name, value) :: members), fuel + 1, rest, h, hfuel, _ => by
    have hmembers := readMembers_writeMembers name value members fuel rest h
      (by simpa [writeValue] using hfuel)
    obtain ⟨cs, hcs⟩ := exists_writeMembers_eq name value members
    rw [hcs, List.cons_append] at hmembers
    rw [writeValue, List.cons_append, hcs, List.cons_append, readValue,
      skip_of_opens (show Opens '{' by decide)]
    simp [skip_of_opens (show Opens '"' by decide), hmembers]
    exact tableDatum_map_some ((name, value) :: members) _

theorem readItems_writeItems : ∀ (item : Datum) (items : List Datum) (fuel : Nat)
    (rest : List Char), ArePlain (item :: items) → (writeItems (item :: items)).length ≤ fuel →
      readItems fuel (writeItems (item :: items) ++ rest) = some (item :: items, rest)
  | item, items, 0, rest, h, hfuel => by
    obtain ⟨c, cs, hcs, -⟩ := exists_writeItems_eq h
    rw [hcs] at hfuel
    cases hfuel
  | item, [], fuel + 1, rest, h, hfuel => by
    rw [writeItems, List.length_append] at hfuel
    have hitem := readValue_writeValue item fuel (']' :: rest) h.1 (by simpa using hfuel)
      (endsNumber_cons (by decide))
    rw [writeItems, List.append_assoc, List.singleton_append, readItems, hitem]
    simp [skip, isSpace]
  | item, next :: items, fuel + 1, rest, h, hfuel => by
    rw [writeItems_cons_cons, List.length_append, List.length_cons] at hfuel
    have hitem := readValue_writeValue item fuel (',' :: (writeItems (next :: items) ++ rest)) h.1
      (by omega) (endsNumber_cons (by decide))
    have hitems := readItems_writeItems next items fuel rest h.2 (by omega)
    rw [writeItems_cons_cons, List.append_assoc, List.cons_append, readItems, hitem]
    simp [skip, isSpace, hitems]

theorem readMembers_writeMembers : ∀ (name : String) (value : Datum)
    (members : List (String × Datum)) (fuel : Nat) (rest : List Char),
    HavePlain ((name, value) :: members) →
      (writeMembers ((name, value) :: members)).length ≤ fuel →
      readMembers fuel (writeMembers ((name, value) :: members) ++ rest) =
        some (((name, value) :: members).map fun e => (some e.1, e.2), rest)
  | name, value, members, 0, rest, _, hfuel => by
    obtain ⟨cs, hcs⟩ := exists_writeMembers_eq name value members
    rw [hcs] at hfuel
    cases hfuel
  | name, value, [], fuel + 1, rest, h, hfuel => by
    rw [writeMembers, List.length_append, List.length_cons, List.length_append] at hfuel
    have hvalue := readValue_writeValue value fuel ('}' :: rest) h.1 (by omega)
      (endsNumber_cons (by decide))
    rw [writeMembers, List.append_assoc, List.cons_append, List.append_assoc, List.singleton_append,
      writeText_append, readMembers, skip_of_opens (show Opens '"' by decide)]
    simp [readName_writeText, skip, isSpace, hvalue]
  | name, value, (next, nextValue) :: members, fuel + 1, rest, h, hfuel => by
    simp only [writeMembers_cons_cons, List.length_append, List.length_cons] at hfuel
    have hvalue := readValue_writeValue value fuel
      (',' :: (writeMembers ((next, nextValue) :: members) ++ rest)) h.1 (by omega)
      (endsNumber_cons (by decide))
    have hmembers := readMembers_writeMembers next nextValue members fuel rest h.2 (by omega)
    rw [writeMembers_cons_cons, List.append_assoc, List.cons_append, List.append_assoc,
      List.cons_append, writeText_append, readMembers, skip_of_opens (show Opens '"' by decide)]
    simp [readName_writeText, skip, isSpace, hvalue, hmembers]

end

/-- **What is written of a plain datum is read as that datum.** -/
theorem read?_write {d : Datum} (h : IsPlain d) : read? (write d) = some d := by
  have hread := readValue_writeValue d ((writeValue d).length + 1) [] h (by omega) endsNumber_nil
  rw [List.append_nil] at hread
  simp [read?, write, hread, skip]

/-- **Plain data are told apart by their texts.** -/
theorem write_inj {d d' : Datum} (h : IsPlain d) (h' : IsPlain d') :
    write d = write d' ↔ d = d' := by
  refine ⟨fun heq => ?_, fun heq => by rw [heq]⟩
  have hread := read?_write h
  rw [heq, read?_write h'] at hread
  exact (Option.some.inj hread).symm

end Json
end PoolControl
