import Mathlib.Data.List.TakeWhile
import SiteFilter.Proofs.Json.Texts
import SiteFilter.Proofs.Number.Layout

/-!
# Reading back documents

What is written for a value is read as that value, on one line or spread over lines. The value has
to be one that documents can hold: whole numbers within the digit limit, objects whose keys differ,
and no deeper nesting than the reader has room for. Floating-point numbers are not among them, since
whether one is read back hangs on the digits that are written for it; arrays and objects hold
whatever is read back by itself.
-/

namespace SiteFilter.Json

/-- The values that a document in a style can hold, nested at most `room` deep. -/
inductive Readable (style : Style) : (room : Nat) → Json → Prop
  | null {room : Nat} : Readable style room .null
  | bool {room : Nat} (b : Bool) : Readable style room (.bool b)
  | int {room : Nat} {i : Int} (short : (Text.ofNat i.natAbs).length ≤ Numeral.digitLimit) :
      Readable style room (.int i)
  | text {room : Nat} {t : Text} (holds : style.Holds t) : Readable style room (.text t)
  | array {room : Nat} {items : List Json} (each : ∀ item ∈ items, Readable style room item) :
      Readable style (room + 1) (.array items)
  | object {room : Nat} {members : List (Text × Json)}
      (keys : ∀ member ∈ members, style.Holds member.1) (distinct : (members.map (·.1)).Nodup)
      (each : ∀ member ∈ members, Readable style room member.2) :
      Readable style (room + 1) (.object members)

theorem Readable.pair {style : Style} {room : Nat} {name other : Text} {v w : Json}
    (plain : style.asciiOnly = false) (apart : name ≠ other) (first : Readable style room v)
    (second : Readable style room w) :
    Readable style (room + 1) (.object [(name, v), (other, w)]) := by
  refine .object (fun _ _ => Style.holds_of_plain plain _) (by simpa using apart) ?_
  intro member inside
  simp only [List.mem_cons, List.not_mem_nil, or_false] at inside
  rcases inside with rfl | rfl
  · exact first
  · exact second

/-- What can be held with less room can be held with more. -/
theorem Readable.mono {style : Style} {room more : Nat} {v : Json} (h : Readable style room v)
    (le : room ≤ more) : Readable style more v := by
  induction h generalizing more with
  | null => exact .null
  | bool b => exact .bool b
  | int short => exact .int short
  | text holds => exact .text holds
  | array each ih =>
      obtain ⟨more, rfl⟩ : ∃ n, more = n + 1 := ⟨more - 1, by omega⟩
      exact .array fun item inside => ih item inside (by omega)
  | object keys distinct each ih =>
      obtain ⟨more, rfl⟩ : ∃ n, more = n + 1 := ⟨more - 1, by omega⟩
      exact .object keys distinct fun member inside => ih member inside (by omega)

/-- Whatever the limits are, they leave room for the documents of the program. -/
theorem Readable.within {style : Style} {v : Json} (h : Readable style ownDepth v)
    (limits : Limits) : Readable style limits.reading v :=
  h.mono limits.reads

/-! ## Values in which there is not too much -/

theorem excessOfItems?_eq_none {room : Nat} {items : List Json} :
    excessOfItems? room items = none ↔ ∀ item ∈ items, excess? room item = none := by
  induction items with
  | nil => simp [excessOfItems?]
  | cons item items ih => simp [excessOfItems?, ih]

theorem excessOfMembers?_eq_none {room : Nat} {members : List (Text × Json)} :
    excessOfMembers? room members = none ↔ ∀ member ∈ members, excess? room member.2 = none := by
  induction members with
  | nil => simp [excessOfMembers?]
  | cons member members ih => simp [excessOfMembers?, ih]

/-- What a document can hold can be written with as much room. -/
theorem Readable.excess?_eq_none {style : Style} {room : Nat} {v : Json}
    (h : Readable style room v) : excess? room v = none := by
  induction h with
  | int short => simp [excess?, Nat.not_lt.mpr short]
  | array each ih => simpa [excess?, excessOfItems?_eq_none] using ih
  | object keys distinct each ih => simpa [excess?, excessOfMembers?_eq_none] using ih
  | _ => rfl

theorem Readable.excess?_within {style : Style} {v : Json} (h : Readable style ownDepth v)
    (limits : Limits) : excess? limits.writing v = none :=
  (h.mono limits.writes).excess?_eq_none

/-! ## Space -/

/-- What can stand behind a value: nothing that a number could go on with. -/
def EndsValue (rest : Text) : Prop :=
  ∀ c ∈ rest.head?, c.isAsciiDigit = false ∧ c.val ≠ 0x2E ∧ c.val ≠ 0x65 ∧ c.val ≠ 0x45

theorem isSpace_eq_false {c : CodePoint} (visible : 0x20 < c.val) : isSpace c = false := by
  simp only [isSpace, Bool.or_eq_false_iff, decide_eq_false_iff_not]
  omega

theorem skipSpace_cons {c : CodePoint} (visible : isSpace c = false) (rest : Text) :
    skipSpace (c :: rest) = c :: rest := by
  simp [skipSpace, visible]

theorem skipSpace_lineStart (level : Nat) (rest : Text) :
    skipSpace (lineStart level ++ rest) = skipSpace rest := by
  have blanks (k : Nat) :
      skipSpace (List.replicate k (CodePoint.ofChar ' ') ++ rest) = skipSpace rest := by
    induction k with
    | zero => rfl
    | succ k ih => exact ih
  exact blanks (2 * level)

theorem skipSpace_margin (style : Style) (level : Nat) (rest : Text) :
    skipSpace (margin style level ++ rest) = skipSpace rest := by
  unfold margin
  split
  · exact skipSpace_lineStart level rest
  · rfl

/-- A separator is a comma and space. -/
theorem separator_split (style : Style) (level : Nat) :
    ∃ space, separator style level = CodePoint.ofChar ',' :: space ∧ 0 < space.length ∧
      ∀ rest, skipSpace (space ++ rest) = skipSpace rest := by
  unfold separator
  split
  · exact ⟨lineStart level, rfl, by simp [lineStart], skipSpace_lineStart level⟩
  · exact ⟨[CodePoint.ofChar ' '], rfl, by simp, fun rest => rfl⟩

theorem endsValue_cons {c : CodePoint} (rest : Text) (digit : c.isAsciiDigit = false)
    (point : c.val ≠ 0x2E) (small : c.val ≠ 0x65) (large : c.val ≠ 0x45) :
    EndsValue (c :: rest) := by
  intro d head
  cases head
  exact ⟨digit, point, small, large⟩

theorem endsValue_margin (style : Style) (level : Nat) {rest : Text} (h : EndsValue rest) :
    EndsValue (margin style level ++ rest) := by
  unfold margin
  split
  · exact endsValue_cons _ (by decide) (by decide) (by decide) (by decide)
  · exact h

/-! ## Numbers -/

/-- Digits end where they ended before when something else stands behind. -/
theorem spanDigits_behind (t : Text) {rest : Text} (ends : EndsValue rest) :
    Numeral.spanDigits (t ++ rest) =
      ((Numeral.spanDigits t).1, (Numeral.spanDigits t).2 ++ rest) := by
  unfold Numeral.spanDigits
  induction t with
  | nil =>
      cases rest with
      | nil => rfl
      | cons c rest => simp [(ends c rfl).1]
  | cons c t ih =>
      rw [List.cons_append]
      by_cases digit : c.isAsciiDigit = true
      · rw [Prod.mk.injEq] at ih
        rw [List.takeWhile_cons_of_pos digit, List.takeWhile_cons_of_pos digit,
          List.dropWhile_cons_of_pos digit, List.dropWhile_cons_of_pos digit, ih.1, ih.2]
      · rw [List.takeWhile_cons_of_neg digit, List.takeWhile_cons_of_neg digit,
          List.dropWhile_cons_of_neg digit, List.dropWhile_cons_of_neg digit, List.cons_append]

theorem spanDigits_append {digits rest : Text}
    (all : ∀ c ∈ digits, c.isAsciiDigit = true) (ends : EndsValue rest) :
    Numeral.spanDigits (digits ++ rest) = (digits, rest) := by
  have alone : Numeral.spanDigits digits = (digits, []) := by
    rw [Numeral.spanDigits, List.takeWhile_eq_self_iff.mpr all, List.dropWhile_eq_nil_iff.mpr all]
  rw [spanDigits_behind digits ends, alone, List.nil_append]

theorem wholeDigits_ofNat (n : Nat) {rest : Text} (ends : EndsValue rest) :
    wholeDigits (Text.ofNat n ++ rest) = (Text.ofNat n, rest) := by
  obtain rfl | pos := Nat.eq_zero_or_pos n
  · rfl
  obtain ⟨d, ds, split⟩ := List.exists_cons_of_ne_nil (Text.ofNat_ne_nil n)
  have first : d.val ≠ 0x30 := Text.head_ofNat pos d (by simp [split])
  have span := spanDigits_append (fun c => Text.isAsciiDigit_of_mem_ofNat (n := n)) ends
  rw [split] at span ⊢
  simp only [wholeDigits, List.cons_append, if_neg first] at span ⊢
  exact span

theorem splitFraction_of_ends {rest : Text} (ends : EndsValue rest) :
    splitFraction rest = ([], rest) := by
  match rest with
  | [] => rfl
  | [c] => rfl
  | c :: d :: rest => simp [splitFraction, (ends c rfl).2.1]

theorem splitExponent?_of_ends {rest : Text} (ends : EndsValue rest) :
    Numeral.splitExponent? rest = none := by
  match rest with
  | [] => rfl
  | c :: rest => simp [Numeral.splitExponent?, (ends c rfl).2.2.1, (ends c rfl).2.2.2]

theorem number_ofInt {i : Int} (short : (Text.ofNat i.natAbs).length ≤ Numeral.digitLimit)
    {rest : Text} (ends : EndsValue rest) :
    number (Text.ofInt i ++ rest) = .ok (.int i, rest) := by
  have fraction := splitFraction_of_ends ends
  have exponent := splitExponent?_of_ends ends
  have nonempty (n : Nat) : (Text.ofNat n).isEmpty = false := by
    simp [Text.ofNat_ne_nil]
  have unsigned (n : Nat) : ∃ c behind, Text.ofNat n ++ rest = c :: behind ∧ c.val ≠ 0x2D := by
    obtain ⟨d, ds, split, digit⟩ := Text.exists_digit_ofNat n
    rw [CodePoint.isAsciiDigit_iff] at digit
    exact ⟨d, ds ++ rest, by simp [split], by omega⟩
  have plain (n : Nat) (short : (Text.ofNat n).length ≤ Numeral.digitLimit) :
      number (Text.ofNat n ++ rest) = .ok (.int n, rest) := by
    obtain ⟨c, behind, split, sign⟩ := unsigned n
    have whole := wholeDigits_ofNat n ends
    rw [split] at whole ⊢
    simp [number, sign, whole, nonempty, fraction, exponent, Nat.not_lt.2 short,
      Numeral.value_ofNat]
  cases i with
  | ofNat n => exact plain n short
  | negSucc n =>
      have minus : (CodePoint.ofChar '-').val = 0x2D := rfl
      have within : ¬ Numeral.digitLimit < (Text.ofNat (n + 1)).length := Nat.not_lt.2 short
      simp [Text.ofInt, number, minus, wholeDigits_ofNat (n + 1) ends, nonempty, fraction,
        exponent, within, Numeral.value_ofNat, Int.negSucc_eq]

/-! ## Values, items and members -/

/-- The value is read back wherever it is written, with enough fuel for its length. -/
def ReadsBack (style : Style) (room : Nat) (v : Json) : Prop :=
  ∀ (level fuel : Nat) (rest : Text), EndsValue rest →
    2 * (writeAt style level v).length < fuel →
      value fuel room (writeAt style level v ++ rest) = .ok (v, rest)

/-- A value starts with something to see in ASCII, which closes no array. -/
theorem writeAt_head (style : Style) (v : Json) (level : Nat) :
    ∃ c behind, writeAt style level v = c :: behind ∧ isSpace c = false ∧ c.val ≠ 0x5D ∧
      c.val < 0x80 := by
  cases v with
  | null => exact ⟨_, _, rfl, rfl, by decide⟩
  | bool b => cases b <;> exact ⟨_, _, rfl, rfl, by decide⟩
  | int i =>
      cases i with
      | ofNat n =>
          obtain ⟨d, ds, split, digit⟩ := Text.exists_digit_ofNat n
          rw [CodePoint.isAsciiDigit_iff] at digit
          exact ⟨d, ds, split, isSpace_eq_false (by omega), by omega, by omega⟩
      | negSucc n => exact ⟨_, _, rfl, rfl, by decide⟩
  | float x =>
      obtain ⟨c, behind, split, low, high⟩ := NumberLayout.document_head x
      exact ⟨c, behind, split, isSpace_eq_false (by omega), by omega, by omega⟩
  | text t => exact ⟨_, _, rfl, rfl, by decide⟩
  | array items => cases items <;> exact ⟨_, _, rfl, rfl, by decide⟩
  | object members =>
      cases members with
      | nil => exact ⟨_, _, rfl, rfl, by decide⟩
      | cons member members => exact ⟨CodePoint.ofNat 0x7B, _, rfl, rfl, by decide⟩

/-- Space before a value is passed over, and the value is what comes next. -/
theorem skipSpace_writeAt (style : Style) (v : Json) (level : Nat) (rest : Text) :
    skipSpace (writeAt style level v ++ rest) = writeAt style level v ++ rest := by
  obtain ⟨c, behind, split, visible, -⟩ := writeAt_head style v level
  rw [split, List.cons_append, skipSpace_cons visible]

theorem ofChar_ne_digit {c : CodePoint} (digit : c.isAsciiDigit = true) (d : Char)
    (other : 0x39 < d.toNat ∨ d.toNat < 0x30) : CodePoint.ofChar d ≠ c := by
  intro same
  rw [CodePoint.isAsciiDigit_iff, ← same] at digit
  simp only [CodePoint.ofChar] at digit
  omega

theorem word?_digit {c : CodePoint} (digit : c.isAsciiDigit = true) (rest : Text) :
    word? (c :: rest) = none := by
  simp [word?, words, Text.startsWith, Text.ofString, ofChar_ne_digit digit]

theorem word?_minus {c : CodePoint} (digit : c.isAsciiDigit = true) (rest : Text) :
    word? (CodePoint.ofChar '-' :: c :: rest) = none := by
  simp [word?, words, Text.startsWith, Text.ofString, ofChar_ne_digit digit]

/-- A whole number is not taken for a word. -/
theorem word?_ofInt (i : Int) (rest : Text) : word? (Text.ofInt i ++ rest) = none := by
  cases i with
  | ofNat n =>
      obtain ⟨d, ds, split, digit⟩ := Text.exists_digit_ofNat n
      simp only [Text.ofInt, split, List.cons_append]
      exact word?_digit digit _
  | negSucc n =>
      obtain ⟨d, ds, split, digit⟩ := Text.exists_digit_ofNat (n + 1)
      simp only [Text.ofInt, split, List.cons_append]
      exact word?_minus digit _

/-- The items of an array up to its bracket. -/
theorem items_writeItems (style : Style) (room level : Nat) (others : List Json) :
    ∀ (first : Json) (fuel : Nat) (done : List Json) (rest : Text),
      (∀ item ∈ first :: others, ReadsBack style room item) →
      2 * ((writeAt style (level + 1) first).length + (writeItems style level others).length) + 1
        < fuel →
      items fuel room done (writeAt style (level + 1) first ++ (writeItems style level others
          ++ (margin style (level - 1) ++ CodePoint.ofChar ']' :: rest))) =
        .ok (.array (done.reverse ++ first :: others), rest) := by
  induction others with
  | nil =>
      intro first fuel done rest each enough
      have reads := each first (by simp)
      cases fuel with
      | zero => omega
      | succ fuel =>
          have ends : EndsValue (margin style (level - 1) ++ CodePoint.ofChar ']' :: rest) :=
            endsValue_margin style _
              (endsValue_cons _ (by decide) (by decide) (by decide) (by decide))
          have bracket : skipSpace (CodePoint.ofChar ']' :: rest) = CodePoint.ofChar ']' :: rest :=
            skipSpace_cons rfl rest
          have here : (CodePoint.ofChar ']').val = 0x5D := rfl
          simp only [writeItems, List.nil_append, items]
          rw [reads _ _ _ ends (by omega)]
          simp only [skipSpace_margin, bracket, here, if_true]
          simp
  | cons second others ih =>
      intro first fuel done rest each enough
      have reads := each first (by simp)
      obtain ⟨space, comma, long, skips⟩ := separator_split style level
      cases fuel with
      | zero => omega
      | succ fuel =>
          simp only [writeItems, comma, List.cons_append, List.append_assoc, List.length_cons,
            List.length_append] at enough ⊢
          have ends (behind : Text) : EndsValue (CodePoint.ofChar ',' :: behind) :=
            endsValue_cons _ (by decide) (by decide) (by decide) (by decide)
          have mark (behind : Text) : skipSpace (CodePoint.ofChar ',' :: behind) =
              CodePoint.ofChar ',' :: behind :=
            skipSpace_cons rfl behind
          have here : (CodePoint.ofChar ',').val = 0x2C := rfl
          have next := ih second fuel (first :: done) rest
            (fun item member => each item (List.mem_cons_of_mem first member)) (by omega)
          simp only [items]
          rw [reads _ _ _ (ends _) (by omega)]
          simp only [mark, here, skips, skipSpace_writeAt]
          rw [if_neg (by decide), if_pos trivial, next]
          simp

theorem put_fresh {key : Text} (v : Json) {members : List (Text × Json)}
    (fresh : key ∉ members.map (·.1)) : put key v members = members ++ [(key, v)] := by
  induction members with
  | nil => rfl
  | cons member members ih =>
      simp only [List.map_cons, List.mem_cons, not_or] at fresh
      rw [put, if_neg (Ne.symm fresh.1), ih fresh.2, List.cons_append]

/-- Members whose keys differ make the object that they are. -/
theorem ofMembers_distinct {members : List (Text × Json)}
    (distinct : (members.map (·.1)).Nodup) : ofMembers members = .object members := by
  have step (others : List (Text × Json)) :
      ∀ done : List (Text × Json), ((done ++ others).map (·.1)).Nodup →
        others.foldl (fun done member => put member.1 member.2 done) done = done ++ others := by
    induction others with
    | nil => simp
    | cons member others ih =>
        intro done distinct
        have fresh : member.1 ∉ done.map (·.1) := by
          rw [List.map_append, List.map_cons, List.nodup_append] at distinct
          intro inside
          exact distinct.2.2 _ inside _ (by simp) rfl
        rw [List.foldl_cons, put_fresh _ fresh, ih]
        · simp
        · simpa using distinct
  rw [ofMembers, step members [] (by simpa using distinct), List.nil_append]

theorem writeText_append (asciiOnly : Bool) (t behind : Text) :
    writeText asciiOnly t ++ behind = CodePoint.ofNat 0x22 ::
      (t.flatMap (textPoint asciiOnly) ++ (CodePoint.ofNat 0x22 :: behind)) := by
  simp [writeText]

/-- A member of an object: its key, the colon and its value, with what stands behind. -/
theorem member_writeMember (style : Style) {room : Nat} (level fuel : Nat) {key : Text} {v : Json}
    (holds : style.Holds key) (reads : ReadsBack style room v) {rest : Text}
    (ends : EndsValue rest)
    (enough : 2 * ((writeText style.asciiOnly key).length
      + (writeAt style (level + 1) v).length) < fuel) :
    ∃ colon, quotedText fuel (writeText style.asciiOnly key ++ (Text.ofString ": "
          ++ (writeAt style (level + 1) v ++ rest))) = .ok (key, CodePoint.ofChar ':' :: colon) ∧
      value fuel room (skipSpace colon) = .ok (v, rest) := by
  refine ⟨CodePoint.ofChar ' ' :: (writeAt style (level + 1) v ++ rest), ?_, ?_⟩
  · have long := length_lt_writeText style.asciiOnly key
    exact quotedText_writeText style holds _ fuel (by omega)
  · have space : skipSpace (CodePoint.ofChar ' ' :: (writeAt style (level + 1) v ++ rest)) =
        skipSpace (writeAt style (level + 1) v ++ rest) := rfl
    rw [space, skipSpace_writeAt]
    exact reads _ _ _ ends (by omega)

/-- A member that was found, and what stands behind it. -/
theorem members_member {fuel room : Nat} {done : List (Text × Json)} {inside colon after : Text}
    {key : Text} {v : Json}
    (foundKey : quotedText fuel (CodePoint.ofNat 0x22 :: inside) =
      .ok (key, CodePoint.ofChar ':' :: colon))
    (foundValue : value fuel room (skipSpace colon) = .ok (v, after)) :
    members (fuel + 1) room done (CodePoint.ofNat 0x22 :: inside) =
      match skipSpace after with
      | [] => .error (.flaw .comma [])
      | c :: rest =>
          if c.val = 0x7D then .ok (ofMembers ((key, v) :: done).reverse, rest)
          else if c.val = 0x2C then members fuel room ((key, v) :: done) (skipSpace rest)
          else .error (.flaw .comma (c :: rest)) := by
  have quote : ¬ (CodePoint.ofNat 0x22).val ≠ 0x22 := by decide
  have mark : ¬ (CodePoint.ofChar ':').val ≠ 0x3A := by decide
  have visible : skipSpace (CodePoint.ofChar ':' :: colon) = CodePoint.ofChar ':' :: colon :=
    skipSpace_cons rfl colon
  rw [members, if_neg quote, foundKey]
  dsimp only
  rw [visible]
  dsimp only
  rw [if_neg mark]
  exact foundValue ▸ rfl

/-- The members of an object up to its brace. -/
theorem members_writeMembers (style : Style) (room level : Nat) (others : List (Text × Json)) :
    ∀ (first : Text × Json) (fuel : Nat) (done : List (Text × Json)) (rest : Text),
      (∀ member ∈ first :: others, style.Holds member.1 ∧ ReadsBack style room member.2) →
      2 * ((writeText style.asciiOnly first.1).length
          + (writeAt style (level + 1) first.2).length
          + (writeMembers style level others).length) + 1 < fuel →
      members fuel room done (writeText style.asciiOnly first.1 ++ (Text.ofString ": "
          ++ (writeAt style (level + 1) first.2 ++ (writeMembers style level others
            ++ (margin style (level - 1) ++ CodePoint.ofNat 0x7D :: rest))))) =
        .ok (ofMembers (done.reverse ++ first :: others), rest) := by
  -- The first member is apart, since the separators stand before the others.
  induction others with
  | nil =>
      intro first fuel done rest each enough
      obtain ⟨holds, reads⟩ := each first (by simp)
      cases fuel with
      | zero => omega
      | succ fuel =>
          have ends : EndsValue (margin style (level - 1) ++ CodePoint.ofNat 0x7D :: rest) :=
            endsValue_margin style _
              (endsValue_cons _ (by decide) (by decide) (by decide) (by decide))
          have brace : skipSpace (CodePoint.ofNat 0x7D :: rest) = CodePoint.ofNat 0x7D :: rest :=
            skipSpace_cons rfl rest
          have here : (CodePoint.ofNat 0x7D).val = 0x7D := rfl
          obtain ⟨colon, foundKey, foundValue⟩ :=
            member_writeMember style level fuel holds reads ends (by omega)
          rw [writeText_append] at foundKey
          rw [writeMembers, List.nil_append, writeText_append,
            members_member foundKey foundValue]
          simp only [skipSpace_margin, brace, here, if_true]
          simp
  | cons second others ih =>
      intro first fuel done rest each enough
      obtain ⟨holds, reads⟩ := each first (by simp)
      obtain ⟨space, comma, long, skips⟩ := separator_split style level
      cases fuel with
      | zero => omega
      | succ fuel =>
          simp only [writeMembers, comma, List.cons_append, List.append_assoc, List.length_cons,
            List.length_append] at enough ⊢
          have ends (behind : Text) : EndsValue (CodePoint.ofChar ',' :: behind) :=
            endsValue_cons _ (by decide) (by decide) (by decide) (by decide)
          have mark (behind : Text) : skipSpace (CodePoint.ofChar ',' :: behind) =
              CodePoint.ofChar ',' :: behind :=
            skipSpace_cons rfl behind
          have visible (behind : Text) : skipSpace (writeText style.asciiOnly second.1 ++ behind) =
              writeText style.asciiOnly second.1 ++ behind := by
            rw [writeText_append, skipSpace_cons rfl]
          have here : (CodePoint.ofChar ',').val = 0x2C := rfl
          have next := ih second fuel (first :: done) rest
            (fun member inside => each member (List.mem_cons_of_mem first inside)) (by omega)
          obtain ⟨colon, foundKey, foundValue⟩ :=
            member_writeMember style level fuel holds reads (ends _) (by omega)
          rw [writeText_append] at foundKey
          rw [writeText_append, members_member foundKey foundValue]
          simp only [mark, here, skips, visible]
          rw [if_neg (by decide), if_pos trivial, next]
          simp

/-! ## Whole values -/

theorem value_array (fuel room : Nat) {rest : Text} {c : CodePoint} {inside : Text}
    (first : skipSpace rest = c :: inside) (item : c.val ≠ 0x5D) :
    value (fuel + 1) (room + 1) (CodePoint.ofChar '[' :: rest) =
      items fuel room [] (c :: inside) := by
  have bracket : (CodePoint.ofChar '[').val = 0x5B := rfl
  unfold value
  simp only [bracket, first, if_neg item]
  rfl

theorem value_object (fuel room : Nat) {rest inside : Text}
    (first : skipSpace rest = CodePoint.ofNat 0x22 :: inside) :
    value (fuel + 1) (room + 1) (CodePoint.ofNat 0x7B :: rest) =
      members fuel room [] (CodePoint.ofNat 0x22 :: inside) := by
  have brace : (CodePoint.ofNat 0x7B).val = 0x7B := rfl
  unfold value
  simp only [brace, first]
  rfl

theorem readsBack_array {style : Style} {room : Nat} {elements : List Json}
    (each : ∀ item ∈ elements, ReadsBack style room item) :
    ReadsBack style (room + 1) (.array elements) := by
  intro level fuel rest ends enough
  cases fuel with
  | zero => omega
  | succ fuel =>
      cases elements with
      | nil => rfl
      | cons first others =>
          obtain ⟨c, behind, split, visible, item, -⟩ := writeAt_head style first (level + 1)
          simp only [writeAt, List.cons_append, List.append_assoc, List.nil_append,
            List.length_cons, List.length_append] at enough ⊢
          have found := items_writeItems style room level others first fuel [] rest each (by omega)
          have start (after : Text) : skipSpace (margin style level
              ++ (writeAt style (level + 1) first ++ after)) = c :: (behind ++ after) := by
            rw [skipSpace_margin, skipSpace_writeAt, split, List.cons_append]
          rw [value_array fuel room (start _) item, ← List.cons_append, ← split, found]
          rfl

theorem readsBack_object {style : Style} {room : Nat} {pairs : List (Text × Json)}
    (distinct : (pairs.map (·.1)).Nodup)
    (each : ∀ member ∈ pairs, style.Holds member.1 ∧ ReadsBack style room member.2) :
    ReadsBack style (room + 1) (.object pairs) := by
  intro level fuel rest ends enough
  cases fuel with
  | zero => omega
  | succ fuel =>
      cases pairs with
      | nil => rfl
      | cons first others =>
          obtain ⟨key, v⟩ := first
          simp only [writeAt, List.cons_append, List.append_assoc, List.nil_append,
            List.length_cons, List.length_append] at enough ⊢
          have found := members_writeMembers style room level others (key, v) fuel [] rest each
            (by simp only; omega)
          have start (after : Text) : skipSpace (margin style level
              ++ (writeText style.asciiOnly key ++ after)) = CodePoint.ofNat 0x22 ::
                (key.flatMap (textPoint style.asciiOnly) ++ (CodePoint.ofNat 0x22 :: after)) := by
            rw [skipSpace_margin, writeText_append, skipSpace_cons rfl]
          rw [value_object fuel room (start _), ← writeText_append, found, List.reverse_nil,
            List.nil_append, ofMembers_distinct distinct]

/-- What starts neither a text nor an object nor an array is a word or a number. -/
theorem value_scalar (fuel room : Nat) {t : Text} {c : CodePoint} (behind : Text)
    (split : t = c :: behind)
    (quote : c.val ≠ 0x22) (brace : c.val ≠ 0x7B) (bracket : c.val ≠ 0x5B) :
    value (fuel + 1) room t =
      match word? t with
      | some found => .ok found
      | none => number t := by
  subst split
  unfold value
  dsimp only
  rw [if_neg quote, if_neg brace]
  exact if_neg bracket

/-- No word is the front of another, so it is found whatever stands behind it. -/
theorem word?_of_mem {name : String} {v : Json} (listed : (name, v) ∈ words) (rest : Text) :
    word? (Text.ofString name ++ rest) = some (v, rest) := by
  simp only [words, List.mem_cons, List.not_mem_nil, or_false, Prod.mk.injEq] at listed
  rcases listed with ⟨rfl, rfl⟩ | ⟨rfl, rfl⟩ | ⟨rfl, rfl⟩ | ⟨rfl, rfl⟩ | ⟨rfl, rfl⟩ | ⟨rfl, rfl⟩ <;>
    simp [word?, words, Text.startsWith, Text.ofString, CodePoint.ofChar] <;> rfl

/-- Words are read as what they name. -/
theorem value_word (fuel room : Nat) (name : String) {v : Json} (listed : (name, v) ∈ words)
    (rest : Text) : value (fuel + 1) room (Text.ofString name ++ rest) = .ok (v, rest) := by
  obtain ⟨c, behind, split, quote, brace, bracket⟩ : ∃ c behind, Text.ofString name = c :: behind ∧
      c.val ≠ 0x22 ∧ c.val ≠ 0x7B ∧ c.val ≠ 0x5B := by
    simp only [words, List.mem_cons, List.not_mem_nil, or_false, Prod.mk.injEq] at listed
    rcases listed with
      ⟨rfl, -⟩ | ⟨rfl, -⟩ | ⟨rfl, -⟩ | ⟨rfl, -⟩ | ⟨rfl, -⟩ | ⟨rfl, -⟩ <;>
      exact ⟨_, _, rfl, by decide, by decide, by decide⟩
  rw [value_scalar fuel room (behind ++ rest) (by rw [split, List.cons_append]) quote brace bracket,
    word?_of_mem listed]

theorem value_ofInt (fuel room : Nat) {i : Int}
    (short : (Text.ofNat i.natAbs).length ≤ Numeral.digitLimit) {rest : Text}
    (ends : EndsValue rest) :
    value (fuel + 1) room (Text.ofInt i ++ rest) = .ok (.int i, rest) := by
  obtain ⟨c, behind, split, range⟩ : ∃ c behind, Text.ofInt i = c :: behind ∧
      0x2D ≤ c.val ∧ c.val ≤ 0x39 := by
    cases i with
    | ofNat n =>
        obtain ⟨d, ds, split, digit⟩ := Text.exists_digit_ofNat n
        rw [CodePoint.isAsciiDigit_iff] at digit
        exact ⟨d, ds, split, by omega, digit.2⟩
    | negSucc n => exact ⟨_, _, rfl, by decide, by decide⟩
  rw [value_scalar fuel room (behind ++ rest) (by rw [split, List.cons_append]) (by omega)
    (by omega) (by omega), word?_ofInt, number_ofInt short ends]

/-- What is written for a value is read as that value. -/
theorem value_writeAt {style : Style} {room : Nat} {v : Json} (h : Readable style room v) :
    ReadsBack style room v := by
  -- The induction follows the value; items and members come with what is known of each of them.
  induction h with
  | null =>
      intro level fuel rest ends enough
      cases fuel with
      | zero => omega
      | succ fuel => exact value_word fuel _ "null" (by simp [words]) rest
  | bool b =>
      intro level fuel rest ends enough
      cases fuel with
      | zero => omega
      | succ fuel =>
          cases b with
          | true => exact value_word fuel _ "true" (by simp [words]) rest
          | false => exact value_word fuel _ "false" (by simp [words]) rest
  | int short =>
      intro level fuel rest ends enough
      cases fuel with
      | zero => omega
      | succ fuel => exact value_ofInt fuel _ short ends
  | @text _ t holds =>
      intro level fuel rest ends enough
      cases fuel with
      | zero => omega
      | succ fuel =>
          have long := length_lt_writeText style.asciiOnly t
          simp only [writeAt] at enough ⊢
          have found := quotedText_writeText style holds rest fuel (by omega)
          have quote : (CodePoint.ofNat 0x22).val = 0x22 := rfl
          rw [writeText_append] at found ⊢
          unfold value
          simp only [quote, if_true, found]
  | array each ih => exact readsBack_array ih
  | object keys distinct each ih =>
      exact readsBack_object distinct fun member inside => ⟨keys member inside, ih member inside⟩

/-! ## Documents -/

/-- The document of a value that is read back stands for that value. -/
theorem read_of_readsBack {limits : Limits} {style : Style} {v : Json}
    (h : ReadsBack style limits.reading v) : read limits (write style v) = .ok v := by
  obtain ⟨c, behind, split, visible, -, ascii⟩ := writeAt_head style v 1
  have found := h 1 (2 * (write style v).length + 1) [] (fun d head => by cases head)
    (Nat.lt_succ_self _)
  rw [List.append_nil] at found
  have mark : c.val ≠ 0xFEFF := by omega
  unfold write at found ⊢
  rw [split] at found ⊢
  simp only [read, document, if_neg mark, skipSpace_cons visible, found]
  rfl

theorem read_write {limits : Limits} {style : Style} {v : Json}
    (h : Readable style limits.reading v) : read limits (write style v) = .ok v :=
  read_of_readsBack (value_writeAt h)

end SiteFilter.Json
