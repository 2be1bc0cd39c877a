import SiteFilter.FilterList

/-!
# URL filters as patterns

The engine takes a URL filter for a pattern. `^` and `$` stand for the ends of the address,
parentheses make a group, `?` makes what stands before it optional, a backslash takes its meaning
from the code point behind it, and what has no meaning stands for itself. Read in this way the
filter of a host is well formed, and it is found in the addresses of the root of this very host and
in no others.
-/

namespace SiteFilter

/-- A pattern that an address is searched for. -/
inductive UrlPattern
  | empty
  /-- A code point that stands for itself. -/
  | point (c : CodePoint)
  /-- The start of the address. -/
  | start
  /-- The end of the address. -/
  | finish
  | optional (item : UrlPattern)
  | seq (first second : UrlPattern)

namespace UrlPattern

/-! ## What patterns fit -/

/-- Whether a pattern fits a part of an address that has texts before and behind it. -/
def Fits : UrlPattern → (before part behind : Text) → Prop
  | empty, _, part, _ => part = []
  | point c, _, part, _ => part = [c]
  | start, before, part, _ => part = [] ∧ before = []
  | finish, _, part, behind => part = [] ∧ behind = []
  | optional item, before, part, behind => part = [] ∨ item.Fits before part behind
  | seq first second, before, part, behind =>
      ∃ front back, part = front ++ back ∧ first.Fits before front (back ++ behind) ∧
        second.Fits (before ++ front) back behind

def Matches (pattern : UrlPattern) (address : Text) : Prop :=
  ∃ before part behind, address = before ++ part ++ behind ∧ pattern.Fits before part behind

def all (items : List UrlPattern) : UrlPattern :=
  items.foldr seq empty

def literal (t : Text) : List UrlPattern :=
  t.map point

/-- Whether a pattern fits just these texts, wherever they stand. -/
def Spells (pattern : UrlPattern) (choices : List Text) : Prop :=
  ∀ before part behind, pattern.Fits before part behind ↔ part ∈ choices

theorem Spells.optional {item : UrlPattern} {choices : List Text} (h : item.Spells choices) :
    (optional item).Spells ([] :: choices) := by
  intro before part behind
  rw [Fits, h, List.mem_cons]

theorem spells_point (c : CodePoint) : (point c).Spells [[c]] := by
  intro before part behind
  rw [Fits, List.mem_singleton]

theorem fits_all_nil {before part behind : Text} :
    (all []).Fits before part behind ↔ part = [] :=
  Iff.rfl

/-- An item with its own texts is followed by the rest of the pattern. -/
theorem fits_all_cons {item : UrlPattern} {choices : List Text} (h : item.Spells choices)
    {items : List UrlPattern} {before part behind : Text} :
    (all (item :: items)).Fits before part behind ↔
      ∃ front ∈ choices, ∃ back, part = front ++ back ∧
        (all items).Fits (before ++ front) back behind := by
  change (∃ front back, part = front ++ back ∧ item.Fits before front (back ++ behind) ∧
    (all items).Fits (before ++ front) back behind) ↔ _
  constructor
  · rintro ⟨front, back, split, fits, rest⟩
    exact ⟨front, (h _ _ _).mp fits, back, split, rest⟩
  · rintro ⟨front, inside, back, split, rest⟩
    exact ⟨front, back, split, (h _ _ _).mpr inside, rest⟩

theorem fits_start_cons {items : List UrlPattern} {before part behind : Text} :
    (all (start :: items)).Fits before part behind ↔
      before = [] ∧ (all items).Fits [] part behind := by
  constructor
  · rintro ⟨_, back, rfl, ⟨rfl, rfl⟩, rest⟩
    exact ⟨rfl, rest⟩
  · rintro ⟨rfl, rest⟩
    exact ⟨[], part, rfl, ⟨rfl, rfl⟩, rest⟩

theorem fits_finish {before part behind : Text} :
    (all [finish]).Fits before part behind ↔ part = [] ∧ behind = [] := by
  constructor
  · rintro ⟨front, back, rfl, ⟨rfl, none⟩, last⟩
    cases fits_all_nil.mp last
    exact ⟨rfl, none⟩
  · rintro ⟨rfl, rfl⟩
    exact ⟨[], [], rfl, ⟨rfl, rfl⟩, rfl⟩

theorem fits_literal_append {t : Text} {items : List UrlPattern} {before part behind : Text} :
    (all (literal t ++ items)).Fits before part behind ↔
      ∃ back, part = t ++ back ∧ (all items).Fits (before ++ t) back behind := by
  induction t generalizing before part with
  | nil => simp [literal]
  | cons c t ih =>
      change (all (point c :: (literal t ++ items))).Fits before part behind ↔ _
      rw [fits_all_cons (spells_point c)]
      simp only [List.mem_singleton, exists_eq_left, ih]
      constructor
      · rintro ⟨_, rfl, back, rfl, rest⟩
        exact ⟨back, rfl, by simpa using rest⟩
      · rintro ⟨back, rfl, rest⟩
        exact ⟨t ++ back, rfl, back, rfl, by simpa using rest⟩

theorem spells_literal (t : Text) : (all (literal t)).Spells [t] := by
  intro before part behind
  rw [← List.append_nil (literal t), fits_literal_append, List.mem_singleton]
  simp [fits_all_nil]

/-! ## Reading patterns -/

/-- What a code point of a pattern says. -/
inductive Token
  /-- It stands for itself. -/
  | point (c : CodePoint)
  | start
  | finish
  | opens
  | closes
  /-- What stands before it is optional. -/
  | mark
  /-- It has a meaning that filters of hosts make no use of. -/
  | other
deriving DecidableEq

def tokenOf (c : CodePoint) : Token :=
  if c = CodePoint.ofChar '^' then .start
  else if c = CodePoint.ofChar '$' then .finish
  else if c = CodePoint.ofChar '(' then .opens
  else if c = CodePoint.ofChar ')' then .closes
  else if c = CodePoint.ofChar '?' then .mark
  else if (Text.ofString ".|*+[]\x7b\x7d").contains c then .other
  else .point c

/-- What the code points of a pattern say; a backslash makes the next one stand for itself. -/
def tokensFrom (escaped : Bool) : Text → List Token
  | [] => if escaped then [.other] else []
  | c :: rest =>
      if escaped then .point c :: tokensFrom false rest
      else if c = CodePoint.ofChar '\\' then tokensFrom true rest
      else tokenOf c :: tokensFrom false rest

def tokens (t : Text) : List Token :=
  tokensFrom false t

/-- Whether a pattern can be made optional: a code point or a group, and once. -/
def isRepeatable : UrlPattern → Bool
  | empty | point _ | seq _ _ => true
  | start | finish | optional _ => false

/--
The pattern of tokens: `items` are those of the group that is open, the latest first, and `outer`
those in front of it in the groups around it.
-/
def build (outer : List (List UrlPattern)) (items : List UrlPattern) :
    List Token → Option UrlPattern
  | [] => if outer.isEmpty then some (all items.reverse) else none
  | .point c :: rest => build outer (point c :: items) rest
  | .start :: rest => build outer (start :: items) rest
  | .finish :: rest => build outer (finish :: items) rest
  | .opens :: rest => build (items :: outer) [] rest
  | .closes :: rest =>
      match outer with
      | [] => none
      | before :: outer => build outer (all items.reverse :: before) rest
  | .mark :: rest =>
      match items with
      | [] => none
      | item :: items =>
          if item.isRepeatable then build outer (optional item :: items) rest else none
  | .other :: _ => none

def read (t : Text) : Option UrlPattern :=
  build [] [] (tokens t)

example : (read (Text.ofString "a(b")).isNone ∧ (read (Text.ofString "a??")).isNone := by
  decide

/-! ## The filter of a host -/

/-- A code point with a meaning says nothing but itself when it is escaped. -/
theorem tokens_escaped (c : CodePoint) (rest : Text) :
    tokens ((if FilterEntry.special.contains c then [CodePoint.ofChar '\\', c] else [c]) ++ rest) =
      .point c :: tokens rest := by
  by_cases meaning : FilterEntry.special.contains c = true
  · rw [if_pos meaning]
    rfl
  · rw [if_neg meaning]
    -- Every code point with a meaning is among those that are escaped, so this one has none.
    have apart : ∀ d ∈ FilterEntry.special, c ≠ d := by
      rintro _ inside rfl
      exact meaning (List.contains_iff_mem.mpr inside)
    have plain : (Text.ofString ".|*+[]\x7b\x7d").contains c = false := by
      rw [← Bool.not_eq_true, List.contains_iff_mem]
      intro inside
      have known : ∀ d ∈ Text.ofString ".|*+[]\x7b\x7d", d ∈ FilterEntry.special := by decide
      exact apart c (known c inside) rfl
    rw [List.singleton_append, tokens, tokensFrom, if_neg Bool.false_ne_true,
      if_neg (apart _ (by decide)), tokenOf, if_neg (apart _ (by decide)),
      if_neg (apart _ (by decide)), if_neg (apart _ (by decide)), if_neg (apart _ (by decide)),
      if_neg (apart _ (by decide)), plain, if_neg Bool.false_ne_true]
    rfl

/-- An escaped text says the text, whatever stands behind it. -/
theorem tokens_escapeUrlFilter (t rest : Text) :
    tokens (FilterEntry.escapeUrlFilter t ++ rest) = t.map .point ++ tokens rest := by
  induction t with
  | nil => rfl
  | cons c t ih =>
      rw [FilterEntry.escapeUrlFilter, List.flatMap_cons, List.append_assoc, tokens_escaped]
      exact congrArg (Token.point c :: ·) ih

theorem build_points (outer : List (List UrlPattern)) (items : List UrlPattern) (t : Text)
    (rest : List Token) :
    build outer items (t.map .point ++ rest) = build outer ((literal t).reverse ++ items) rest := by
  induction t generalizing items with
  | nil => rfl
  | cons c t ih =>
      refine (ih (point c :: items)).trans ?_
      simp [literal]

/-- What stands before the host: the start, one of two schemes and perhaps `www.`. -/
def opening : List UrlPattern :=
  start :: (literal (Text.ofString "http") ++ optional (point (CodePoint.ofChar 's'))
    :: (literal (Text.ofString "://") ++ [optional (all (literal (Text.ofString "www.")))]))

/-- What stands behind the host: perhaps a slash, and then the end. -/
def closing : List UrlPattern :=
  [optional (point (CodePoint.ofChar '/')), finish]

theorem tokens_lead (rest : Text) :
    tokens (Text.ofString "^https?://(www\\.)?" ++ rest) =
      .start :: ((Text.ofString "http").map .point ++ .point (CodePoint.ofChar 's') :: .mark
        :: ((Text.ofString "://").map .point ++ .opens
          :: ((Text.ofString "www.").map .point ++ .closes :: .mark :: tokens rest))) := rfl

theorem read_urlFilter (hostname : Text) :
    read (FilterEntry.urlFilter hostname) =
      some (all (opening ++ (literal hostname ++ closing))) := by
  have front (rest : List Token) : build [] []
      (.start :: ((Text.ofString "http").map .point ++ .point (CodePoint.ofChar 's') :: .mark
        :: ((Text.ofString "://").map .point ++ .opens
          :: ((Text.ofString "www.").map .point ++ .closes :: .mark :: rest)))) =
      build [] opening.reverse rest := rfl
  have back (items : List UrlPattern) :
      build [] items (tokens (Text.ofString "/?$")) =
        some (all (closing.reverse ++ items).reverse) := rfl
  rw [read, FilterEntry.urlFilter, List.append_assoc, tokens_lead, front, tokens_escapeUrlFilter,
    build_points, back]
  simp

def IsRootOf (hostname address : Text) : Prop :=
  ∃ scheme ∈ [Text.ofString "http", Text.ofString "https"], ∃ lead ∈ [[], Text.ofString "www."],
    ∃ slash ∈ [[], Text.ofString "/"],
      address = scheme ++ Text.ofString "://" ++ lead ++ hostname ++ slash

theorem isRootOf_iff {hostname address : Text} :
    IsRootOf hostname address ↔
      ∃ secure ∈ [[], [CodePoint.ofChar 's']], ∃ lead ∈ [[], Text.ofString "www."],
        ∃ slash ∈ [[], [CodePoint.ofChar '/']],
          address = Text.ofString "http" ++ (secure ++ (Text.ofString "://" ++
            (lead ++ (hostname ++ slash)))) := by
  have schemes : [Text.ofString "http", Text.ofString "https"] =
      [[], [CodePoint.ofChar 's']].map (Text.ofString "http" ++ ·) := rfl
  unfold IsRootOf
  rw [schemes]
  simp only [List.append_assoc]
  constructor
  · rintro ⟨_, inside, rest⟩
    obtain ⟨secure, listed, rfl⟩ := List.mem_map.mp inside
    simp only [List.append_assoc] at rest
    exact ⟨secure, listed, rest⟩
  · rintro ⟨secure, listed, rest⟩
    refine ⟨_, List.mem_map_of_mem listed, ?_⟩
    simp only [List.append_assoc]
    exact rest

/-- A filter that starts at the start and ends at the end is not found in a part of an address. -/
theorem fits_filter {hostname before part behind : Text} :
    (all (opening ++ (literal hostname ++ closing))).Fits before part behind ↔
      before = [] ∧ behind = [] ∧ IsRootOf hostname part := by
  have secure : (optional (point (CodePoint.ofChar 's'))).Spells [[], [CodePoint.ofChar 's']] :=
    (spells_point _).optional
  have lead : (optional (all (literal (Text.ofString "www.")))).Spells
      [[], Text.ofString "www."] := (spells_literal _).optional
  have slash : (optional (point (CodePoint.ofChar '/'))).Spells [[], [CodePoint.ofChar '/']] :=
    (spells_point _).optional
  have items : opening ++ (literal hostname ++ closing) =
      start :: (literal (Text.ofString "http") ++ optional (point (CodePoint.ofChar 's'))
        :: (literal (Text.ofString "://") ++ optional (all (literal (Text.ofString "www.")))
          :: (literal hostname ++ closing))) := rfl
  -- Item by item, each with the texts that it spells, up to the end of the address.
  rw [items, isRootOf_iff, fits_start_cons, fits_literal_append]
  simp only [fits_all_cons secure, fits_literal_append, fits_all_cons lead, closing,
    fits_all_cons slash, fits_finish]
  constructor
  · rintro ⟨rfl, _, rfl, s, hs, _, rfl, _, rfl, w, hw, _, rfl, _, rfl, t, ht, _, rfl, rfl, rfl⟩
    exact ⟨rfl, rfl, s, hs, w, hw, t, ht, by rw [List.append_nil]⟩
  · rintro ⟨rfl, rfl, s, hs, w, hw, t, ht, rfl⟩
    exact ⟨rfl, _, rfl, s, hs, _, rfl, _, rfl, w, hw, _, rfl, _, rfl, t, ht, [],
      (List.append_nil t).symm, rfl, rfl⟩

/--
The filter of a host is well formed, and it is found in the addresses of the root of this host, by
either scheme and with or without `www.` in front, and in no other address.
-/
theorem urlFilter_matches_iff (hostname : Text) :
    ∃ pattern, read (FilterEntry.urlFilter hostname) = some pattern ∧
      ∀ address, pattern.Matches address ↔ IsRootOf hostname address := by
  refine ⟨_, read_urlFilter hostname, fun address => ?_⟩
  unfold Matches
  simp only [fits_filter]
  constructor
  · rintro ⟨_, part, _, rfl, rfl, rfl, root⟩
    simpa using root
  · intro root
    exact ⟨[], address, [], by simp, rfl, rfl, root⟩

end UrlPattern

end SiteFilter
