import SiteFilter.Channel.Client
import SiteFilter.Proofs.Channel.Framing

/-!
# What asking for rules comes to

Whatever the other side does, whoever asks gets a list: the rules that the first line offers, and
none in all other cases. The exceptions are replies of which there is too much, and a wait without
an end for a line that does not come.
-/

namespace SiteFilter.Channel

/-- A document in which there is too much: digits of a number, or values around a value. -/
def IsExcessive (limits : Json.Limits) (document : Text) : Prop :=
  ∃ e, Json.read limits document = .error (.excessive e)

/-- A line offers rules: it is a JSON object with an array under their name. -/
def LineOffers (limits : Json.Limits) (line : Bytes) (rules : List Json) : Prop :=
  ∃ reply, Json.read limits (Utf8.decodeLenient line) = .ok reply ∧
    reply.get? rulesName = some (.array rules)

namespace Peer

def open? : Peer → Option Bytes
  | .breaking octets | .stalling octets => some octets
  | .missing | .gone _ | .replying _ => none

/-- The first line that a peer says. The end of the connection ends a line too. -/
def Says : Peer → Bytes → Prop
  | .replying octets, line => IsFirstLine line octets
  | .breaking octets, line | .stalling octets, line =>
      lineEnd ∉ line ∧ ∃ rest, octets = line ++ lineEnd :: rest
  | .missing, _ | .gone _, _ => False

def Offers (limits : Json.Limits) (peer : Peer) (rules : List Json) : Prop :=
  ∃ line, peer.Says line ∧ LineOffers limits line rules

/-- There is too much in the first line of a peer, which need not have come to its end. -/
inductive Overwhelms (limits : Json.Limits) (peer : Peer) : Prop
  | long {line : Bytes} (said : peer.Says line) (long : lineLimit < line.length)
  | endless {octets : Bytes} (sent : peer.open? = some octets) (single : lineEnd ∉ octets)
      (long : lineLimit < octets.length)
  | excessive {line : Bytes} (said : peer.Says line)
      (excessive : IsExcessive limits (Utf8.decodeLenient line))

/-- A peer keeps others waiting: the end of its first line does not come, nor does it break. -/
def Stalls (peer : Peer) : Prop :=
  ∃ octets, peer = .stalling octets ∧ lineEnd ∉ octets ∧ octets.length ≤ lineLimit

end Peer

/-! ## One line -/

variable {limits : Json.Limits} {line octets : Bytes} {rules : List Json}

/-- What is found in a line in which there is not too much. -/
theorem rulesIn_eq_ok_iff : rulesIn limits line = .ok rules ↔
    ¬ IsExcessive limits (Utf8.decodeLenient line) ∧
      (LineOffers limits line rules ∨ rules = [] ∧ ∀ offered, ¬ LineOffers limits line offered) := by
  unfold rulesIn LineOffers IsExcessive
  cases Json.read limits (Utf8.decodeLenient line) with
  | error e => cases e <;> simp [eq_comm]
  | ok reply =>
      simp only [reduceCtorEq, exists_false, not_false_eq_true, true_and, Except.ok.injEq,
        exists_eq_left']
      split
      · rename_i offered there
        simp [there, eq_comm]
      · rename_i none
        constructor
        · rintro ⟨⟩
          exact .inr ⟨rfl, none⟩
        · rintro (there | ⟨rfl, -⟩)
          · exact absurd there (none _)
          · rfl

theorem rulesOf_eq (h : IsFirstLine line octets) : rulesOf limits octets =
    if lineLimit < line.length then .error .lineTooLong else rulesIn limits line := by
  unfold rulesOf
  rw [receive_eq h]
  by_cases long : lineLimit < line.length
  · rw [if_pos long, if_pos long]
  · rw [if_neg long, if_neg long]
    by_cases none : octets = []
    · subst none
      obtain ⟨-, rfl | ⟨rest, cut⟩⟩ := h
      · rfl
      · simp at cut
    · rw [if_neg none]

theorem rulesOf_eq_ok_iff (h : IsFirstLine line octets) : rulesOf limits octets = .ok rules ↔
    (line.length ≤ lineLimit ∧ ¬ IsExcessive limits (Utf8.decodeLenient line)) ∧
      (LineOffers limits line rules ∨ rules = [] ∧ ∀ offered, ¬ LineOffers limits line offered) := by
  rw [rulesOf_eq h]
  split
  · rename_i long
    exact ⟨nofun, fun ⟨⟨short, _⟩, _⟩ => absurd short (by omega)⟩
  · rename_i short
    rw [rulesIn_eq_ok_iff, and_assoc]
    exact ⟨fun known => ⟨by omega, known⟩, fun ⟨_, known⟩ => known⟩

/-! ## One peer -/

namespace Peer

variable {peer : Peer}

theorem says_of_open (sent : peer.open? = some octets) :
    peer.Says line ↔ lineEnd ∉ line ∧ ∃ rest, octets = line ++ lineEnd :: rest := by
  cases peer <;> cases sent <;> rfl

theorem Says.unique {other : Bytes} (h : peer.Says line) (h' : peer.Says other) :
    line = other := by
  cases peer with
  | replying octets => exact IsFirstLine.unique h h'
  | breaking octets => exact IsFirstLine.unique ⟨h.1, .inr h.2⟩ ⟨h'.1, .inr h'.2⟩
  | stalling octets => exact IsFirstLine.unique ⟨h.1, .inr h.2⟩ ⟨h'.1, .inr h'.2⟩
  | gone octets => cases h
  | missing => cases h

theorem Says.offers_iff (h : peer.Says line) :
    peer.Offers limits rules ↔ LineOffers limits line rules := by
  constructor
  · rintro ⟨other, said, offers⟩
    rwa [h.unique said]
  · exact fun offers => ⟨line, h, offers⟩

theorem Says.overwhelms_iff (h : peer.Says line) : peer.Overwhelms limits ↔
    ¬ (line.length ≤ lineLimit ∧ ¬ IsExcessive limits (Utf8.decodeLenient line)) := by
  rw [not_and_or, not_not, Nat.not_le]
  constructor
  · intro overwhelms
    cases overwhelms with
    | long said long => exact .inl (h.unique said ▸ long)
    | endless sent single _ =>
        obtain ⟨-, rest, rfl⟩ := (says_of_open sent).mp h
        simp at single
    | excessive said excessive => exact .inr (h.unique said ▸ excessive)
  · rintro (long | excessive)
    · exact .long h long
    · exact .excessive h excessive

/-- What a peer yields to whoever asks: the rules that it offers, and none when it offers none. -/
def Yields (limits : Json.Limits) (peer : Peer) (rules : List Json) : Prop :=
  peer.Offers limits rules ∨ rules = [] ∧ ∀ offered, ¬ peer.Offers limits offered

/-- Without a first line there are no rules. -/
theorem yields_iff_of_not_says (unsaid : ∀ line, ¬ peer.Says line) :
    peer.Yields limits rules ↔ rules = [] := by
  have none (offered : List Json) : ¬ peer.Offers limits offered :=
    fun ⟨line, said, _⟩ => unsaid line said
  constructor
  · rintro (offers | ⟨empty, -⟩)
    · exact absurd offers (none rules)
    · exact empty
  · exact fun empty => .inr ⟨empty, none⟩

/-- Without a first line there is too much only where no end of it is in sight. -/
theorem overwhelms_iff_of_not_says (unsaid : ∀ line, ¬ peer.Says line) :
    peer.Overwhelms limits ↔
      ∃ octets, peer.open? = some octets ∧ lineEnd ∉ octets ∧ lineLimit < octets.length := by
  constructor
  · intro overwhelms
    cases overwhelms with
    | long said _ => exact absurd said (unsaid _)
    | endless sent single long => exact ⟨_, sent, single, long⟩
    | excessive said _ => exact absurd said (unsaid _)
  · rintro ⟨octets, sent, single, long⟩
    exact .endless sent single long

end Peer

/-! ## Waiting as long as need be -/

theorem decides_iff : decides octets = true ↔ lineEnd ∈ octets ∨ lineLimit < octets.length := by
  simp [decides]

variable {peer : Peer}

/-- What is found in octets with a first line. -/
theorem rulesOf_eq_ok_iff_yields (first : IsFirstLine line octets) (said : peer.Says line) :
    rulesOf limits octets = .ok rules ↔ ¬ peer.Overwhelms limits ∧ peer.Yields limits rules := by
  unfold Peer.Yields
  rw [rulesOf_eq_ok_iff first, said.overwhelms_iff, not_not]
  simp only [said.offers_iff]

/-- What is found in octets that decide the first line although they need not be all. -/
theorem rulesOf_eq_ok_iff_of_open (sent : peer.open? = some octets)
    (decided : decides octets = true) :
    rulesOf limits octets = .ok rules ↔ ¬ peer.Overwhelms limits ∧ peer.Yields limits rules := by
  have first := isFirstLine_takeWhile octets
  by_cases ended : lineEnd ∈ octets
  · refine rulesOf_eq_ok_iff_yields first ((Peer.says_of_open sent).mpr ?_)
    obtain ⟨single, same | cut⟩ := first
    · rw [← same] at single
      exact absurd ended single
    · exact ⟨single, cut⟩
  · have long := (decides_iff.mp decided).resolve_left ended
    rw [rulesOf_eq (.whole ended), if_pos long]
    exact ⟨nofun, fun ⟨spared, _⟩ => absurd (.endless sent ended long) spared⟩

/-- A peer that has not decided its first line yields nothing so far, and not too much. -/
theorem yields_of_open (sent : peer.open? = some octets) (undecided : decides octets = false) :
    rules = [] ↔ ¬ peer.Overwhelms limits ∧ peer.Yields limits rules := by
  rw [← Bool.not_eq_true, decides_iff, not_or] at undecided
  have unsaid (line : Bytes) : ¬ peer.Says line := by
    rw [Peer.says_of_open sent]
    rintro ⟨-, rest, rfl⟩
    simp at undecided
  rw [Peer.yields_iff_of_not_says unsaid, Peer.overwhelms_iff_of_not_says unsaid]
  refine ⟨fun none => ⟨?_, none⟩, And.right⟩
  rintro ⟨octets, same, -, long⟩
  obtain rfl := Option.some.inj (sent.symm.trans same)
  exact undecided.2 long

theorem yields_of_stalls (h : peer.Stalls) :
    rules = [] ↔ ¬ peer.Overwhelms limits ∧ peer.Yields limits rules := by
  obtain ⟨octets, rfl, single, short⟩ := h
  refine yields_of_open rfl ?_
  rw [← Bool.not_eq_true, decides_iff, not_or]
  exact ⟨single, Nat.not_lt.mpr short⟩

/-- Nobody is ever told what a peer comes to that stalls, and nobody else keeps it back. -/
theorem reply?_eq_none_iff : reply? limits peer = none ↔ peer.Stalls := by
  unfold Peer.Stalls
  cases peer with
  | stalling octets =>
      simp only [reply?, Peer.stalling.injEq, exists_eq_left', ← Nat.not_lt, ← not_or, ← decides_iff]
      simp
  | _ => simp [reply?]

theorem reply?_eq_ok_iff : reply? limits peer = some (.ok rules) ↔
    ¬ peer.Stalls ∧ ¬ peer.Overwhelms limits ∧ peer.Yields limits rules := by
  have mute (unsaid : ∀ line, ¬ peer.Says line) (closed : peer.open? = none)
      (known : reply? limits peer = some (.ok [])) : reply? limits peer = some (.ok rules) ↔
        ¬ peer.Overwhelms limits ∧ peer.Yields limits rules := by
    rw [Peer.yields_iff_of_not_says unsaid, Peer.overwhelms_iff_of_not_says unsaid, known, closed]
    simp [eq_comm]
  by_cases stalls : peer.Stalls
  · rw [reply?_eq_none_iff.mpr stalls]
    exact ⟨nofun, fun known => absurd stalls known.1⟩
  · refine Iff.trans ?_ (and_iff_right stalls).symm
    cases peer with
    | missing => exact mute (fun _ => id) rfl rfl
    | gone octets => exact mute (fun _ => id) rfl rfl
    | replying octets =>
        rw [reply?, Option.some.injEq]
        exact rulesOf_eq_ok_iff_yields (isFirstLine_takeWhile octets)
          (isFirstLine_takeWhile octets)
    | breaking octets =>
        rw [reply?, Option.some.injEq]
        split
        · rename_i decided
          exact rulesOf_eq_ok_iff_of_open rfl decided
        · rename_i undecided
          rw [Except.ok.injEq, eq_comm]
          exact yields_of_open rfl (Bool.not_eq_true _ ▸ undecided)
    | stalling octets =>
        rw [reply?]
        split
        · rename_i decided
          rw [Option.some.injEq]
          exact rulesOf_eq_ok_iff_of_open rfl decided
        · rename_i undecided
          rw [decides_iff, not_or, Nat.not_lt] at undecided
          exact absurd ⟨octets, rfl, undecided⟩ stalls

/-! ## The answer -/

/--
What asking comes to, for every time limit and every peer. It comes to a list just when there is not
too much in the reply and the wait has an end. The list holds the rules that the first line offers,
and nothing when it offers none; without time nothing is asked. The wait has no end just when the
limit has none and the peer stalls.
-/
theorem ask_told_iff (limits : Json.Limits) (limit : Json) (peer : Peer) (rules : List Json) :
    (ask limits limit peer = .told rules ↔
      leavesTime limit = .ok false ∧ rules = [] ∨
        leavesTime limit = .ok true ∧ ¬ peer.Overwhelms limits ∧ peer.Yields limits rules ∧
          ¬ (isEndless limit = true ∧ peer.Stalls)) ∧
    (ask limits limit peer = .waiting ↔
      leavesTime limit = .ok true ∧ isEndless limit = true ∧ peer.Stalls) := by
  cases time : leavesTime limit with
  | error e =>
      simp only [ask, time]
      exact ⟨⟨nofun, nofun⟩, nofun, nofun⟩
  | ok enough =>
      cases enough with
      | false =>
          rw [show ask limits limit peer = .told [] by simp only [ask, time]]
          simp [@eq_comm _ [] rules]
      | true =>
          have silent : reply? limits peer = none ↔ peer.Stalls := reply?_eq_none_iff
          have told : reply? limits peer = some (.ok rules) ↔ _ := reply?_eq_ok_iff
          by_cases stalls : peer.Stalls
          · have nothing : rules = [] ↔ ¬ peer.Overwhelms limits ∧ _ := yields_of_stalls stalls
            rw [show ask limits limit peer = if isEndless limit then .waiting else .told [] by
              simp only [ask, time, silent.mpr stalls]]
            by_cases endless : isEndless limit = true
            · simp [endless, stalls]
            · simp [endless, ← nothing, @eq_comm _ [] rules]
          · obtain ⟨result, known⟩ := Option.ne_none_iff_exists'.mp fun none =>
              stalls (silent.mp none)
            rw [known] at told
            simp only [ask, time, known]
            cases result with
            | ok found => simpa [stalls] using told
            | error e => simpa [stalls] using told

/-- A line that is one octet too long yields no empty list, but a fault. -/
theorem ask_long_line : ask .usual .null
    (.replying (List.replicate (lineLimit + 1) 0x61 ++ [lineEnd])) = .failed .lineTooLong := by
  have rejected (line : Bytes) (single : lineEnd ∉ line) (long : lineLimit < line.length) :
      ask .usual .null (.replying (line ++ [lineEnd])) = .failed .lineTooLong := by
    simp only [ask, leavesTime, reply?, rulesOf_eq (.closed single []), if_pos long]
  apply rejected
  · intro inside
    exact absurd (List.eq_of_mem_replicate inside) (by decide)
  · rw [List.length_replicate]
    exact Nat.lt_succ_self lineLimit

end SiteFilter.Channel
