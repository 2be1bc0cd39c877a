import Mathlib.Data.List.TakeWhile
import SiteFilter.Page.Hostname

/-!
# The host in an authority

User information stands in front of the last `@` of an authority, and may hold colons and other `@`.
The port stands behind the first colon that follows. Everything behind the first `/`, `?` or `#` is
no part of the authority. Whatever stands around a host, the host of the page is that host.
-/

namespace SiteFilter

theorem CodePoint.eq_ofChar_iff {c : CodePoint} {letter : Char} :
    c = ofChar letter ↔ c.val = letter.toNat :=
  ⟨congrArg val, ext_val (b := ofChar letter)⟩

namespace Text

theorem beforeFirst_append_cons {c : CodePoint} {front : Text} (h : c ∉ front) (rest : Text) :
    beforeFirst c (front ++ c :: rest) = front := by
  have others : ∀ d ∈ front, decide (d ≠ c) = true := fun d inside => by
    simpa using ne_of_mem_of_not_mem inside h
  rw [beforeFirst, List.takeWhile_append_of_pos others, List.takeWhile_cons_of_neg (by simp),
    List.append_nil]

theorem beforeFirst_of_not_mem {c : CodePoint} {t : Text} (h : c ∉ t) : beforeFirst c t = t := by
  rw [beforeFirst, List.takeWhile_eq_self_iff]
  intro d inside
  simpa using ne_of_mem_of_not_mem inside h

theorem afterLast_append_cons {c : CodePoint} {rest : Text} (h : c ∉ rest) (front : Text) :
    afterLast c (front ++ c :: rest) = rest := by
  have turned : (front ++ c :: rest).reverse = rest.reverse ++ c :: front.reverse := by simp
  have found := beforeFirst_append_cons (fun inside => h (List.mem_reverse.mp inside)) front.reverse
  rw [beforeFirst] at found
  rw [afterLast, turned, found, List.reverse_reverse]

theorem afterLast_of_not_mem {c : CodePoint} {t : Text} (h : c ∉ t) : afterLast c t = t := by
  have whole := beforeFirst_of_not_mem fun inside => h (List.mem_reverse.mp inside)
  rw [beforeFirst] at whole
  rw [afterLast, whole, List.reverse_reverse]

end Text

namespace PageAddress

/-! ## The parts of an address -/

/-- A text of ASCII that has none of the given characters, and no tabs and line ends. -/
def IsWithout (others : String) (t : Text) : Prop :=
  ∀ c ∈ t, c.val < 0x80 ∧ c ∉ Text.ofString "\t\n\r" ∧ c ∉ Text.ofString others

instance (others : String) (t : Text) : Decidable (IsWithout others t) :=
  inferInstanceAs (Decidable (∀ c ∈ t, _))

/-- Nothing, or a text with an `@` behind it. Colons and more `@` may stand in the text. -/
def IsUserInfo (user : Text) : Prop :=
  user = [] ∨ ∃ t, IsWithout "/?#[]" t ∧ user = t ++ Text.ofString "@"

/-- A host that is no numeric address in brackets. -/
def IsHost (host : Text) : Prop :=
  host ≠ [] ∧ IsWithout "/?#@:[]%" host

/-- Nothing, or a text with a colon in front of it. More colons may stand in the text. -/
def IsPort (port : Text) : Prop :=
  port = [] ∨ ∃ t, IsWithout "/?#@[]" t ∧ port = Text.ofString ":" ++ t

/-- Nothing, or any text behind a `/`, `?` or `#`. -/
def IsRest (rest : Text) : Prop :=
  rest = [] ∨ ∃ c ∈ Text.ofString "/?#", ∃ t, rest = c :: t

structure Parts where
  scheme : Text
  user : Text
  host : Text
  port : Text
  rest : Text
  isScheme : scheme = Text.ofString "http://" ∨ scheme = Text.ofString "https://"
  isUserInfo : IsUserInfo user
  isHost : IsHost host
  isPort : IsPort port
  isRest : IsRest rest

def Parts.address (parts : Parts) : Text :=
  parts.scheme ++ parts.user ++ parts.host ++ parts.port ++ parts.rest

/-! ## The parts are found -/

theorem IsWithout.not_mem {others : String} {t : Text} (h : IsWithout others t) {c : CodePoint}
    (listed : c ∈ Text.ofString others) : c ∉ t :=
  fun inside => (h c inside).2.2 listed

theorem IsWithout.append {others : String} {t u : Text} (ht : IsWithout others t)
    (hu : IsWithout others u) : IsWithout others (t ++ u) :=
  List.forall_mem_append.mpr ⟨ht, hu⟩

/-- A text that has none of some characters has none of fewer. -/
theorem IsWithout.mono {more fewer : String} {t : Text} (h : IsWithout more t)
    (listed : ∀ c ∈ Text.ofString fewer, c ∈ Text.ofString more) : IsWithout fewer t := by
  intro c inside
  obtain ⟨ascii, shown, other⟩ := h c inside
  exact ⟨ascii, shown, fun held => other (listed c held)⟩

theorem isDropped_iff {c : CodePoint} : isDropped c = true ↔ c ∈ Text.ofString "\t\n\r" := by
  simp [isDropped, Text.ofString, CodePoint.eq_ofChar_iff, or_assoc]

theorem endsAuthority_iff {c : CodePoint} : endsAuthority c = true ↔ c ∈ Text.ofString "/?#" := by
  simp [endsAuthority, Text.ofString, CodePoint.eq_ofChar_iff, or_assoc]

namespace Parts

variable (parts : Parts)

def authority : Text :=
  parts.user ++ parts.host ++ parts.port

theorem isWithout_user : IsWithout "/?#[]" parts.user := by
  rcases parts.isUserInfo with none | ⟨t, plain, split⟩
  · rw [none]
    exact List.forall_mem_nil _
  · rw [split]
    exact plain.append (by decide)

theorem isWithout_port : IsWithout "/?#@[]" parts.port := by
  rcases parts.isPort with none | ⟨t, plain, split⟩
  · rw [none]
    exact List.forall_mem_nil _
  · rw [split]
    exact IsWithout.append (by decide) plain

theorem isWithout_hostAndPort : IsWithout "/?#@[]" (parts.host ++ parts.port) :=
  (parts.isHost.2.mono (by decide)).append parts.isWithout_port

theorem isWithout_authority : IsWithout "/?#[]" parts.authority := by
  rw [authority, List.append_assoc]
  exact parts.isWithout_user.append (parts.isWithout_hostAndPort.mono (by decide))

theorem find_scheme :
    (schemes.find? fun lead => parts.address.startsWith lead) = some parts.scheme := by
  rw [address]
  rcases parts.isScheme with same | same <;> rw [same] <;> rfl

/-- The authority ends where the path, the query or the fragment starts. -/
theorem authority?_address : authority? parts.address = some parts.authority := by
  have kept : parts.authority.filter (fun c => !isDropped c) = parts.authority := by
    rw [List.filter_eq_self]
    intro c inside
    have shown := (parts.isWithout_authority c inside).2.1
    rw [← isDropped_iff] at shown
    simpa using shown
  have before : ∀ c ∈ parts.authority, (!endsAuthority c) = true := by
    intro c inside
    have delimiters : IsWithout "/?#" parts.authority := parts.isWithout_authority.mono (by decide)
    have other := (delimiters c inside).2.2
    rw [← endsAuthority_iff] at other
    simpa using other
  have behind :
      (parts.rest.filter fun c => !isDropped c).takeWhile (fun c => !endsAuthority c) = [] := by
    rcases parts.isRest with none | ⟨c, listed, t, split⟩
    · rw [none]
      rfl
    · have ends := endsAuthority_iff.mpr listed
      have shown : isDropped c = false := by
        have all : ∀ c ∈ Text.ofString "/?#", isDropped c = false := by decide
        exact all c listed
      rw [split, List.filter_cons_of_pos (by simp [shown]),
        List.takeWhile_cons_of_neg (by simp [ends])]
  have split : parts.address = parts.scheme ++ (parts.authority ++ parts.rest) := by
    simp [address, authority]
  rw [authority?, find_scheme, Option.map_some, split, List.drop_left, List.filter_append, kept,
    List.takeWhile_append_of_pos before, behind, List.append_nil]

/-- The user information ends with the last `@`, whichever others it holds. -/
theorem hostAndPort_authority : hostAndPort parts.authority = parts.host ++ parts.port := by
  have free := parts.isWithout_hostAndPort.not_mem (c := CodePoint.ofChar '@') (by decide)
  rw [hostAndPort, authority, List.append_assoc]
  rcases parts.isUserInfo with none | ⟨t, -, split⟩
  · rw [none, List.nil_append, Text.afterLast_of_not_mem free]
  · rw [split, List.append_assoc]
    exact Text.afterLast_append_cons free t

/-- The host ends with the first colon behind the user information. -/
theorem hostPart_authority : hostPart parts.authority = parts.host := by
  have closed : ¬ (parts.host ++ parts.port).contains openBracket = true := fun inside =>
    parts.isWithout_hostAndPort.not_mem (by decide) (List.contains_iff_mem.mp inside)
  have free := parts.isHost.2.not_mem (c := CodePoint.ofChar ':') (by decide)
  simp only [hostPart, hostAndPort_authority, if_neg closed]
  rcases parts.isPort with none | ⟨t, -, split⟩
  · rw [none, List.append_nil, Text.beforeFirst_of_not_mem free]
  · rw [split]
    exact Text.beforeFirst_append_cons free t

theorem flaw?_authority : flaw? parts.authority = none := by
  have without {c : CodePoint} (listed : c ∈ Text.ofString "/?#[]") :
      parts.authority.contains c = false := by
    rw [List.contains_eq_mem, decide_eq_false_iff_not]
    exact parts.isWithout_authority.not_mem listed
  have opened : parts.authority.contains openBracket = false := without (by decide)
  have closed : parts.authority.contains closeBracket = false := without (by decide)
  have alike : (parts.authority.any fun c => delimiterLookalikes.contains c.val) = false := by
    rw [List.any_eq_false]
    intro c inside held
    have small := (parts.isWithout_authority c inside).1
    have large : ∀ n ∈ delimiterLookalikes, 0x80 ≤ n := by decide
    have := large _ (List.contains_iff_mem.mp held)
    omega
  rw [flaw?, opened, closed, alike]
  rfl

theorem lowerHost_host : lowerHost parts.host = parts.host.lower := by
  have free := parts.isHost.2.not_mem (c := CodePoint.ofChar '%') (by decide)
  have zoneless : parts.host.dropWhile (· ≠ CodePoint.ofChar '%') = [] := by
    rw [List.dropWhile_eq_nil_iff]
    intro c inside
    simpa using ne_of_mem_of_not_mem inside free
  rw [lowerHost, Text.beforeFirst_of_not_mem free, zoneless, List.append_nil]

/-- The host of an address is its host in lower case. -/
theorem hostname_of_address : hostname parts.address = .ok (some parts.host.lower) := by
  have full : parts.host.isEmpty = false := List.isEmpty_eq_false_iff.mpr parts.isHost.1
  simp only [hostname, authority?_address, flaw?_authority, hostPart_authority, lowerHost_host,
    full, Bool.false_eq_true, if_false]

end Parts

theorem hostname_of_noScheme {address : Text} (plain : ¬ Text.ofString "http://" <+: address)
    (secure : ¬ Text.ofString "https://" <+: address) : hostname address = .ok none := by
  have none : (schemes.find? fun lead => address.startsWith lead) = none := by
    simp [schemes, Text.startsWith, List.isPrefixOf_iff_prefix, plain, secure]
  rw [hostname, authority?, none, Option.map_none]

/--
Whatever stands around the host of an address, the page has that host in lower case. An address
without one of the schemes has no host.
-/
theorem hostname_among_parts :
    (∀ parts : Parts, hostname parts.address = .ok (some parts.host.lower)) ∧
      ∀ address : Text, ¬ Text.ofString "http://" <+: address →
        ¬ Text.ofString "https://" <+: address → hostname address = .ok none :=
  ⟨Parts.hostname_of_address, fun _ => hostname_of_noScheme⟩

def craftedParts : Parts where
  scheme := Text.ofString "https://"
  user := Text.ofString "http:@bank.com:80@"
  host := Text.ofString "Shop.Example"
  port := Text.ofString ":8:0"
  rest := Text.ofString "#@other.com:1/?"
  isScheme := .inr rfl
  isUserInfo := .inr ⟨Text.ofString "http:@bank.com:80", by decide, rfl⟩
  isHost := ⟨by decide, by decide⟩
  isPort := .inr ⟨Text.ofString "8:0", by decide, rfl⟩
  isRest := .inr ⟨CodePoint.ofChar '#', by decide, Text.ofString "@other.com:1/?", rfl⟩

theorem hostname_among_parts_crafted :
    hostname (Text.ofString "https://http:@bank.com:80@Shop.Example:8:0#@other.com:1/?") =
        .ok (some (Text.ofString "shop.example")) ∧
      ¬ Text.ofString "http://" <+: Text.ofString " http://a.com/" ∧
      ¬ Text.ofString "https://" <+: Text.ofString " http://a.com/" ∧
      hostname (Text.ofString " http://a.com/") = .ok none := by
  have small : craftedParts.host.lower = Text.ofString "shop.example" := by decide
  have given := hostname_among_parts.1 craftedParts
  rw [small] at given
  exact ⟨given, by decide, by decide, hostname_among_parts.2 _ (by decide) (by decide)⟩

end PageAddress

end SiteFilter
