import SiteFilter.Proofs.Json.RoundTrip
import SiteFilter.Proofs.Text.Encoding
import SiteFilter.Text.Lines

/-!
# What documents are made of

A document holds printable ASCII, and line feeds when it is spread over lines. In plain style the
code points of its texts that are not ASCII stand in it as they are. So unifying line ends leaves a
document as it is, a document on one line is one line, and it has octets when its texts have, or
when it is in ASCII.
-/

namespace SiteFilter.Json

/-- A code point stands in one of the texts or keys of a value. -/
inductive Occurs (c : CodePoint) : Json → Prop
  | text {t : Text} (inside : c ∈ t) : Occurs c (.text t)
  | item {items : List Json} {item : Json} (member : item ∈ items) (inside : Occurs c item) :
      Occurs c (.array items)
  | key {members : List (Text × Json)} {member : Text × Json} (listed : member ∈ members)
      (inside : c ∈ member.1) : Occurs c (.object members)
  | value {members : List (Text × Json)} {member : Text × Json} (listed : member ∈ members)
      (inside : Occurs c member.2) : Occurs c (.object members)

theorem occurs_text_iff {c : CodePoint} {t : Text} : Occurs c (.text t) ↔ c ∈ t := by
  constructor
  · intro h
    cases h with
    | text inside => exact inside
  · exact .text

theorem occurs_array_iff {c : CodePoint} {items : List Json} :
    Occurs c (.array items) ↔ ∃ item ∈ items, Occurs c item := by
  constructor
  · intro h
    cases h with
    | item member inside => exact ⟨_, member, inside⟩
  · intro ⟨item, member, inside⟩
    exact .item member inside

theorem occurs_object_iff {c : CodePoint} {members : List (Text × Json)} :
    Occurs c (.object members) ↔ ∃ member ∈ members, c ∈ member.1 ∨ Occurs c member.2 := by
  constructor
  · intro h
    cases h with
    | key listed inside => exact ⟨_, listed, .inl inside⟩
    | value listed inside => exact ⟨_, listed, .inr inside⟩
  · intro ⟨member, listed, inside⟩
    rcases inside with key | value
    · exact .key listed key
    · exact .value listed value

/-! ## What is written in ASCII -/

def IsAscii (t : Text) : Prop :=
  ∀ c ∈ t, 0x20 ≤ c.val ∧ c.val < 0x80

instance (t : Text) : Decidable (IsAscii t) :=
  inferInstanceAs (Decidable (∀ c ∈ t, 0x20 ≤ c.val ∧ c.val < 0x80))

namespace IsAscii

variable {t u : Text}

theorem nil : IsAscii [] :=
  fun _ inside => nomatch inside

theorem append (h : IsAscii t) (h' : IsAscii u) : IsAscii (t ++ u) := by
  intro c inside
  rcases List.mem_append.mp inside with front | back
  · exact h c front
  · exact h' c back

theorem cons {c : CodePoint} (here : 0x20 ≤ c.val ∧ c.val < 0x80) (h : IsAscii t) :
    IsAscii (c :: t) :=
  List.forall_mem_cons.mpr ⟨here, h⟩

theorem replicate (n : Nat) {c : CodePoint} (here : 0x20 ≤ c.val ∧ c.val < 0x80) :
    IsAscii (List.replicate n c) := by
  intro d inside
  rw [List.eq_of_mem_replicate inside]
  exact here

theorem encodable (h : IsAscii t) : Utf8.Encodable t := by
  intro c inside
  have range := h c inside
  simp only [CodePoint.isSurrogate, Bool.and_eq_false_iff, decide_eq_false_iff_not]
  omega

theorem ofNat (n : Nat) : IsAscii (Text.ofNat n) := by
  intro c inside
  have range := (CodePoint.isAsciiDigit_iff c).mp (Text.isAsciiDigit_of_mem_ofNat inside)
  omega

theorem ofInt (i : Int) : IsAscii (Text.ofInt i) := by
  cases i with
  | ofNat n => exact ofNat n
  | negSucc n => exact cons (by decide) (ofNat (n + 1))

theorem document (x : Float) : IsAscii (NumberLayout.document.write Binary.shortest x) := by
  refine NumberLayout.forall_mem_document (fun c digit => ?_) (by decide) (by decide) x
  rw [CodePoint.isAsciiDigit_iff] at digit
  omega

end IsAscii

/-- Printable ASCII, and line feeds where documents are spread over lines. -/
def Style.Prints (style : Style) (c : CodePoint) : Prop :=
  (0x20 ≤ c.val ∧ c.val < 0x80) ∨ (c.val = 0x0A ∧ style.spread = true)

theorem Style.Prints.not_surrogate {style : Style} {c : CodePoint} (h : style.Prints c) :
    c.isSurrogate = false := by
  simp only [CodePoint.isSurrogate, Bool.and_eq_false_iff, decide_eq_false_iff_not]
  rcases h with ascii | ⟨feed, -⟩
  · omega
  · omega

theorem Style.prints_of_ascii {style : Style} {t : Text} (ascii : IsAscii t) {c : CodePoint}
    (inside : c ∈ t) : style.Prints c :=
  .inl (ascii c inside)

theorem prints_lineStart {style : Style} (spread : style.spread = true) {level : Nat}
    {c : CodePoint} (inside : c ∈ lineStart level) : style.Prints c := by
  rcases List.mem_cons.mp inside with rfl | blank
  · exact .inr ⟨rfl, spread⟩
  · rw [List.eq_of_mem_replicate blank]
    exact .inl ⟨by decide, by decide⟩

theorem prints_margin {style : Style} {level : Nat} {c : CodePoint}
    (inside : c ∈ margin style level) : style.Prints c := by
  unfold margin at inside
  split at inside
  · rename_i spread
    exact prints_lineStart spread inside
  · cases inside

theorem prints_separator {style : Style} {level : Nat} {c : CodePoint}
    (inside : c ∈ separator style level) : style.Prints c := by
  unfold separator at inside
  split at inside
  · rename_i spread
    rcases List.mem_cons.mp inside with rfl | blank
    · exact .inl ⟨by decide, by decide⟩
    · exact prints_lineStart spread blank
  · exact Style.prints_of_ascii (by decide) inside

theorem isAscii_unicodeEscape {n : Nat} (h : n < 0x10000) : IsAscii (unicodeEscape n) := by
  have digits : ∀ k < 16, 0x20 ≤ (hexPoint k).val ∧ (hexPoint k).val < 0x80 := by decide
  rw [unicodeEscape, ofHex_four h]
  refine .append (by decide) ?_
  exact .cons (digits _ (by omega)) (.cons (digits _ (by omega))
    (.cons (digits _ (by omega)) (.cons (digits _ (by omega)) .nil)))

/-- A code point in a text is written in printable ASCII, or as it is. -/
theorem mem_textPoint {asciiOnly : Bool} {c d : CodePoint} (inside : c ∈ textPoint asciiOnly d) :
    (0x20 ≤ c.val ∧ c.val < 0x80) ∨ (c = d ∧ 0x80 ≤ c.val ∧ asciiOnly = false) := by
  have range := d.lt
  unfold textPoint at inside
  split at inside
  · rename_i letter found
    have letters : ∀ entry ∈ letterEscapes,
        ∀ c ∈ [CodePoint.ofChar '\\', CodePoint.ofChar entry.2],
          0x20 ≤ c.val ∧ c.val < 0x80 := by decide
    exact .inl (letters _ (mem_letterEscapes found) c inside)
  split at inside
  · exact .inl (isAscii_unicodeEscape (by omega) c inside)
  split at inside
  · rename_i visible direct
    obtain rfl := List.mem_singleton.mp inside
    cases asciiOnly with
    | false =>
        by_cases wide : 0x80 ≤ c.val
        · exact .inr ⟨rfl, wide, rfl⟩
        · exact .inl (by omega)
    | true =>
        have small : c.val < 0x7F := by simpa using direct
        exact .inl (by omega)
  split at inside
  · rename_i basic
    exact .inl (isAscii_unicodeEscape basic c inside)
  · exact .inl (((isAscii_unicodeEscape (by omega)).append (isAscii_unicodeEscape (by omega)))
      c inside)

theorem textPoint_self {c : CodePoint} (wide : 0x80 ≤ c.val) : textPoint false c = [c] := by
  unfold textPoint
  rw [letterEscape?_eq_none (by omega)]
  simp only
  rw [if_neg (by omega), if_pos (by simp)]

theorem mem_writeText {asciiOnly : Bool} {c : CodePoint} {t : Text}
    (inside : c ∈ writeText asciiOnly t) :
    (0x20 ≤ c.val ∧ c.val < 0x80) ∨ (c ∈ t ∧ 0x80 ≤ c.val ∧ asciiOnly = false) := by
  rcases List.mem_append.mp inside with front | quote
  · rcases List.mem_cons.mp front with rfl | piece
    · exact .inl ⟨by decide, by decide⟩
    · obtain ⟨d, member, here⟩ := List.mem_flatMap.mp piece
      rcases mem_textPoint here with ascii | ⟨rfl, direct⟩
      · exact .inl ascii
      · exact .inr ⟨member, direct⟩
  · rw [List.mem_singleton.mp quote]
    exact .inl ⟨by decide, by decide⟩

theorem mem_writeText_of_mem {c : CodePoint} {t : Text} (wide : 0x80 ≤ c.val) (inside : c ∈ t) :
    c ∈ writeText false t := by
  apply List.mem_append_left
  apply List.mem_cons_of_mem
  refine List.mem_flatMap.mpr ⟨c, inside, ?_⟩
  rw [textPoint_self wide]
  exact List.mem_singleton.mpr rfl

/-! ## Items and members -/

variable {style : Style} {level : Nat} {c : CodePoint}

/-- A code point in the items behind the first one is in a separator or in an item. -/
theorem mem_writeItems {items : List Json} (inside : c ∈ writeItems style level items) :
    style.Prints c ∨ ∃ item ∈ items, c ∈ writeAt style (level + 1) item := by
  induction items with
  | nil => cases inside
  | cons item items ih =>
      rw [writeItems, List.append_assoc] at inside
      rcases List.mem_append.mp inside with space | behind
      · exact .inl (prints_separator space)
      · rcases List.mem_append.mp behind with here | later
        · exact .inr ⟨item, List.mem_cons_self, here⟩
        · rcases ih later with printed | ⟨other, member, here⟩
          · exact .inl printed
          · exact .inr ⟨other, List.mem_cons_of_mem _ member, here⟩

theorem mem_writeItems_of_mem {items : List Json} {item : Json} (member : item ∈ items)
    (inside : c ∈ writeAt style (level + 1) item) : c ∈ writeItems style level items := by
  induction items with
  | nil => cases member
  | cons other items ih =>
      rw [writeItems, List.append_assoc]
      apply List.mem_append_right
      rcases List.mem_cons.mp member with rfl | member
      · exact List.mem_append_left _ inside
      · exact List.mem_append_right _ (ih member)

theorem mem_writeMembers {members : List (Text × Json)}
    (inside : c ∈ writeMembers style level members) :
    style.Prints c ∨ ∃ member ∈ members, c ∈ writeText style.asciiOnly member.1 ∨
      c ∈ writeAt style (level + 1) member.2 := by
  induction members with
  | nil => cases inside
  | cons member members ih =>
      rw [writeMembers, List.append_assoc, List.append_assoc, List.append_assoc] at inside
      rcases List.mem_append.mp inside with space | behind
      · exact .inl (prints_separator space)
      rcases List.mem_append.mp behind with key | behind
      · exact .inr ⟨member, List.mem_cons_self, .inl key⟩
      rcases List.mem_append.mp behind with colon | behind
      · exact .inl (Style.prints_of_ascii (by decide) colon)
      rcases List.mem_append.mp behind with value | later
      · exact .inr ⟨member, List.mem_cons_self, .inr value⟩
      rcases ih later with printed | ⟨other, listed, here⟩
      · exact .inl printed
      · exact .inr ⟨other, List.mem_cons_of_mem _ listed, here⟩

theorem mem_writeMembers_of_mem {members : List (Text × Json)} {member : Text × Json}
    (listed : member ∈ members)
    (inside : c ∈ writeText style.asciiOnly member.1 ∨ c ∈ writeAt style (level + 1) member.2) :
    c ∈ writeMembers style level members := by
  induction members with
  | nil => cases listed
  | cons other members ih =>
      rw [writeMembers]
      rcases List.mem_cons.mp listed with rfl | listed
      · rcases inside with key | value
        · simp [key]
        · simp [value]
      · simp [ih listed]

/-- A code point in an array belongs to its layout or to an item. -/
theorem mem_writeAt_array {items : List Json} (inside : c ∈ writeAt style level (.array items)) :
    style.Prints c ∨ ∃ item ∈ items, c ∈ writeAt style (level + 1) item := by
  cases items with
  | nil => exact .inl (Style.prints_of_ascii (t := Text.ofString "[]") (by decide) inside)
  | cons first others =>
      simp only [writeAt, List.cons_append, List.append_assoc] at inside
      rcases List.mem_cons.mp inside with rfl | inside
      · exact .inl (.inl ⟨by decide, by decide⟩)
      rcases List.mem_append.mp inside with space | inside
      · exact .inl (prints_margin space)
      rcases List.mem_append.mp inside with here | inside
      · exact .inr ⟨first, List.mem_cons_self, here⟩
      rcases List.mem_append.mp inside with later | inside
      · rcases mem_writeItems later with printed | ⟨other, member, here⟩
        · exact .inl printed
        · exact .inr ⟨other, List.mem_cons_of_mem _ member, here⟩
      rcases List.mem_append.mp inside with space | bracket
      · exact .inl (prints_margin space)
      · exact .inl (Style.prints_of_ascii (by decide) bracket)

theorem mem_writeAt_array_of_mem {items : List Json} {item : Json} (member : item ∈ items)
    (inside : c ∈ writeAt style (level + 1) item) : c ∈ writeAt style level (.array items) := by
  cases items with
  | nil => cases member
  | cons first others =>
      rw [writeAt]
      rcases List.mem_cons.mp member with rfl | later
      · simp [inside]
      · simp [mem_writeItems_of_mem later inside]

/-- A code point in an object belongs to its layout or to a member. -/
theorem mem_writeAt_object {members : List (Text × Json)}
    (inside : c ∈ writeAt style level (.object members)) :
    style.Prints c ∨ ∃ member ∈ members, c ∈ writeText style.asciiOnly member.1 ∨
      c ∈ writeAt style (level + 1) member.2 := by
  cases members with
  | nil =>
      have braces : ∀ d ∈ [CodePoint.ofNat 0x7B, CodePoint.ofNat 0x7D],
          0x20 ≤ d.val ∧ d.val < 0x80 := by decide
      exact .inl (Style.prints_of_ascii braces inside)
  | cons first others =>
      simp only [writeAt, List.cons_append, List.append_assoc] at inside
      rcases List.mem_cons.mp inside with rfl | inside
      · exact .inl (.inl ⟨by decide, by decide⟩)
      rcases List.mem_append.mp inside with space | inside
      · exact .inl (prints_margin space)
      rcases List.mem_append.mp inside with key | inside
      · exact .inr ⟨first, List.mem_cons_self, .inl key⟩
      rcases List.mem_append.mp inside with colon | inside
      · exact .inl (Style.prints_of_ascii (by decide) colon)
      rcases List.mem_append.mp inside with value | inside
      · exact .inr ⟨first, List.mem_cons_self, .inr value⟩
      rcases List.mem_append.mp inside with later | inside
      · rcases mem_writeMembers later with printed | ⟨other, listed, here⟩
        · exact .inl printed
        · exact .inr ⟨other, List.mem_cons_of_mem _ listed, here⟩
      rcases List.mem_append.mp inside with space | brace
      · exact .inl (prints_margin space)
      · exact .inl (Style.prints_of_ascii (by decide) brace)

theorem mem_writeAt_object_of_mem {members : List (Text × Json)} {member : Text × Json}
    (listed : member ∈ members)
    (inside : c ∈ writeText style.asciiOnly member.1 ∨ c ∈ writeAt style (level + 1) member.2) :
    c ∈ writeAt style level (.object members) := by
  cases members with
  | nil => cases listed
  | cons first others =>
      rw [writeAt]
      rcases List.mem_cons.mp listed with rfl | later
      · rcases inside with key | value
        · simp [key]
        · simp [value]
      · simp [mem_writeMembers_of_mem later inside]

/-! ## Whole documents -/

theorem sizeOf_value_lt {members : List (Text × Json)} {member : Text × Json}
    (listed : member ∈ members) : sizeOf member.2 < sizeOf members := by
  have smaller := List.sizeOf_lt_of_mem listed
  rcases member with ⟨key, value⟩
  rw [Prod.mk.sizeOf_spec] at smaller
  change sizeOf value < sizeOf members
  omega

/-- The code points of a document. Only one in plain style holds code points beyond ASCII. -/
theorem mem_writeAt (v : Json) {level : Nat} (inside : c ∈ writeAt style level v) :
    style.Prints c ∨ (Occurs c v ∧ 0x80 ≤ c.val ∧ style.asciiOnly = false) := by
  match v with
  | .null => exact .inl (Style.prints_of_ascii (t := Text.ofString "null") (by decide) inside)
  | .bool true => exact .inl (Style.prints_of_ascii (t := Text.ofString "true") (by decide) inside)
  | .bool false =>
      exact .inl (Style.prints_of_ascii (t := Text.ofString "false") (by decide) inside)
  | .int i => exact .inl (Style.prints_of_ascii (.ofInt i) inside)
  | .float x => exact .inl (Style.prints_of_ascii (.document x) inside)
  | .text t =>
      rw [writeAt] at inside
      rcases mem_writeText inside with ascii | ⟨member, direct⟩
      · exact .inl (.inl ascii)
      · exact .inr ⟨.text member, direct⟩
  | .array items =>
      rcases mem_writeAt_array inside with printed | ⟨item, member, here⟩
      · exact .inl printed
      · rcases mem_writeAt item here with printed | ⟨occurs, direct⟩
        · exact .inl printed
        · exact .inr ⟨.item member occurs, direct⟩
  | .object members =>
      rcases mem_writeAt_object inside with printed | ⟨member, listed, key | value⟩
      · exact .inl printed
      · rcases mem_writeText key with ascii | ⟨here, direct⟩
        · exact .inl (.inl ascii)
        · exact .inr ⟨.key listed here, direct⟩
      · rcases mem_writeAt member.2 value with printed | ⟨occurs, direct⟩
        · exact .inl printed
        · exact .inr ⟨.value listed occurs, direct⟩
termination_by sizeOf v
decreasing_by
  · have smaller := List.sizeOf_lt_of_mem member
    simp only [array.sizeOf_spec]
    omega
  · have smaller := sizeOf_value_lt listed
    simp only [object.sizeOf_spec]
    omega

/-- What stands in a text beyond ASCII stands in the document as it is. -/
theorem mem_writeAt_of_occurs (plain : style.asciiOnly = false) {v : Json} (wide : 0x80 ≤ c.val)
    (h : Occurs c v) (level : Nat) : c ∈ writeAt style level v := by
  induction h generalizing level with
  | text inside =>
      rw [writeAt, plain]
      exact mem_writeText_of_mem wide inside
  | item member inside ih => exact mem_writeAt_array_of_mem member (ih _)
  | key listed inside =>
      refine mem_writeAt_object_of_mem listed (.inl ?_)
      rw [plain]
      exact mem_writeText_of_mem wide inside
  | value listed inside ih => exact mem_writeAt_object_of_mem listed (.inr (ih _))

/-- A document in plain style has octets exactly when no text in it holds a surrogate. -/
theorem encodable_write_iff (plain : style.asciiOnly = false) {v : Json} :
    Utf8.Encodable (write style v) ↔ ∀ c, Occurs c v → c.isSurrogate = false := by
  constructor
  · intro encodable c occurs
    by_cases wide : 0x80 ≤ c.val
    · exact encodable c (mem_writeAt_of_occurs plain wide occurs 1)
    · simp only [CodePoint.isSurrogate, Bool.and_eq_false_iff, decide_eq_false_iff_not]
      omega
  · intro each c inside
    rcases mem_writeAt v inside with printed | ⟨occurs, -⟩
    · exact printed.not_surrogate
    · exact each c occurs

/-- A document in ASCII has octets, whatever stands in its texts. -/
theorem encodable_write_ascii (ascii : style.asciiOnly = true) (v : Json) :
    Utf8.Encodable (write style v) := by
  intro c inside
  rcases mem_writeAt v inside with printed | ⟨-, -, direct⟩
  · exact printed.not_surrogate
  · rw [ascii] at direct
    cases direct

/-- Unifying line ends leaves a text without carriage returns as it is. -/
theorem unifyLineEnds_of_noReturn {t : Text} (h : ∀ c ∈ t, c.val ≠ 0x0D) :
    t.unifyLineEnds = t := by
  have step (t : Text) : ∀ done : Text, (∀ c ∈ t, c.val ≠ 0x0D) →
      Text.unifyLineEndsFrom false done t = done.reverse ++ t := by
    induction t with
    | nil => simp [Text.unifyLineEndsFrom]
    | cons c t ih =>
        intro done each
        rw [Text.unifyLineEndsFrom, if_neg (each c List.mem_cons_self), Bool.and_false,
          if_neg Bool.false_ne_true, ih _ fun d inside => each d (List.mem_cons_of_mem _ inside)]
        simp
  exact step t [] h

theorem unifyLineEnds_write (style : Style) (v : Json) :
    (write style v).unifyLineEnds = write style v := by
  apply unifyLineEnds_of_noReturn
  intro c inside
  rcases mem_writeAt v inside with (ascii | ⟨feed, -⟩) | ⟨-, wide, -⟩
  · omega
  · omega
  · omega

/-- A document that is not spread is one line. -/
theorem noLineFeed_write (compact : style.spread = false) (v : Json) :
    ∀ c ∈ write style v, c.val ≠ 0x0A := by
  intro c inside
  rcases mem_writeAt v inside with (ascii | ⟨-, spread⟩) | ⟨-, wide, -⟩
  · omega
  · rw [compact] at spread
    cases spread
  · omega

end SiteFilter.Json
