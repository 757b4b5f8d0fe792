import ChatClient.Proofs.Chat.Deeds
import Mathlib.Data.List.Induction
import Mathlib.Data.List.Nodup

/-!
# Who is typing

The list of those who type in a room is changed by one report after the other, but it can be read
off the row of all reports. A user is in it if the last report about them says so. The place of a
user is given by when they began: by the first start that no stop follows, however often they
started since. That the local user has started typing is reported as well, and nothing comes of it.

## Main definitions

* `News.reports`: what the news says about those who type in a room
* `TypingReport.last?`, `TypingReport.begun?`: the last report about a user, and when they began
* `TypingReport.BeganBefore`: the order of those who are typing
* `TypingReport.Account`: who is typing according to a row of reports

## Main results

* `TypingReport.begun?_concat`: what one more report does to the time when a user began
* `TypingReport.account_foldl`: the list that is kept is the one that can be read off the reports
* `Chat.typing_callAll`: so it is in every room, whatever news comes
-/

namespace ChatClient

/-! ## Reports and news -/

/-- The report is noted. That the local user has started typing is not. -/
def TypingReport.heeded (localUser : UserId) (r : TypingReport) : Bool :=
  !(r.on && r.user == localUser)

namespace News

/-- What the news says about a user who types. Who has written a message has stopped typing. -/
def report? (n : News) : Option TypingReport :=
  match n.event with
  | .message incoming => some ⟨incoming.author, false⟩
  | .edited _ _ | .deleted _ => none
  | .typingStarted user => some ⟨user, true⟩
  | .typingStopped user => some ⟨user, false⟩

/-- What the news says about those who type in a room. -/
def reports (room : RoomId) (news : List News) : List TypingReport :=
  (news.filter (·.room = room)).filterMap report?

/-- News reports what its event says, unless nobody heeds it. -/
theorem filterMap_deeds (localUser : UserId) (n : News) :
    (n.deeds localUser).filterMap Chat.Deed.report? =
      n.report?.toList.filter (TypingReport.heeded localUser) := by
  obtain ⟨room, event, now, fresh⟩ := n
  cases event with
  | typingStarted user =>
    by_cases own : user = localUser
    · simp [deeds, report?, TypingReport.heeded, own]
    · simp [deeds, report?, TypingReport.heeded, own, Chat.Deed.report?]
  | _ => rfl

private theorem filterMap_flatMap_deeds (localUser : UserId) (news : List News) :
    ((news.map (Chat.Call.apply localUser)).flatMap Chat.Call.deeds).filterMap Chat.Deed.report? =
      (news.filterMap report?).filter (TypingReport.heeded localUser) := by
  induction news with
  | nil => rfl
  | cons n news ih =>
    have first : (Chat.Call.apply localUser n).deeds.filterMap Chat.Deed.report? =
        n.report?.toList.filter (TypingReport.heeded localUser) := filterMap_deeds localUser n
    rw [List.map_cons, List.flatMap_cons, List.filterMap_append, first, ih, ← List.filter_append]
    cases report : n.report? <;> simp [report]

/-- Of all that the news says, only that the local user has started typing comes to nothing. -/
theorem reports_deeds (localUser : UserId) (room : RoomId) (news : List News) :
    Chat.reports room ((news.map (Chat.Call.apply localUser)).flatMap Chat.Call.deeds) =
      (reports room news).filter (TypingReport.heeded localUser) := by
  rw [Chat.reports, Chat.filter_flatMap_deeds, List.filter_map]
  exact filterMap_flatMap_deeds localUser _

end News

namespace TypingReport

variable {user : UserId} {reports : List TypingReport}

/-! ## The last report about a user, and the one with which they began -/

/-- The last report about the user. -/
def last? (user : UserId) (reports : List TypingReport) : Option TypingReport :=
  (reports.filter (·.user = user)).getLast?

/-- The position of the first start of the user that no stop of theirs follows. -/
def begun? (user : UserId) : List TypingReport → Option Nat
  | [] => none
  | r :: later =>
    if r = ⟨user, true⟩ ∧ ⟨user, false⟩ ∉ later then some 0
    else (begun? user later).map (· + 1)

private theorem last?_concat (r : TypingReport) :
    last? user (reports ++ [r]) = if r.user = user then some r else last? user reports := by
  by_cases own : r.user = user <;> simp [last?, own]

/-- The last report decides, if it is about the user. -/
theorem begun?_concat (r : TypingReport) :
    begun? user (reports ++ [r]) =
      if r = ⟨user, false⟩ then none
      else if r = ⟨user, true⟩ then (begun? user reports).or (some reports.length)
      else begun? user reports := by
  induction reports with
  | nil => by_cases start : r = ⟨user, true⟩ <;> simp [begun?, start]
  | cons first later ih =>
    rw [List.cons_append, begun?, ih]
    -- A stop undoes every start before it; a start counts only if no other one still does.
    by_cases stop : r = ⟨user, false⟩
    · simp [stop]
    · by_cases start : r = ⟨user, true⟩
      · by_cases began : first = ⟨user, true⟩ ∧ ⟨user, false⟩ ∉ later
        · simp [begun?, start, began]
        · cases found : begun? user later <;> simp [begun?, start, began, found]
      · simp [begun?, stop, start, Ne.symm stop]

private theorem begun?_lt {i : Nat} (found : begun? user reports = some i) :
    i < reports.length := by
  induction reports generalizing i with
  | nil => cases found
  | cons first later ih =>
    rw [begun?] at found
    split at found
    · cases found
      exact Nat.succ_pos _
    · obtain ⟨j, began, rfl⟩ := Option.map_eq_some_iff.mp found
      exact Nat.succ_lt_succ (ih began)

/-- Whoever is typing began at some time, and nobody else did. -/
theorem isSome_begun?_iff :
    (begun? user reports).isSome ↔ last? user reports = some ⟨user, true⟩ := by
  induction reports using List.reverseRecOn with
  | nil => simp [begun?, last?]
  | append_singleton reports r ih =>
    rw [begun?_concat, last?_concat]
    obtain ⟨user', on⟩ := r
    by_cases own : user' = user
    · cases on <;> simp [own]
    · simpa [own] using ih

/-! ## Reading the list off the reports -/

/-- Both users are typing, and one of them began first. -/
def BeganBefore (reports : List TypingReport) (user other : UserId) : Prop :=
  ∃ i j, begun? user reports = some i ∧ begun? other reports = some j ∧ i < j

/-- Who is typing according to a row of reports. -/
structure Account (localUser : UserId) (reports : List TypingReport) (typing : List UserId) :
    Prop where
  once : typing.Nodup
  mem_iff : ∀ user, user ∈ typing ↔ user ≠ localUser ∧ last? user reports = some ⟨user, true⟩
  ordered : typing.Pairwise (BeganBefore reports)

/-- A report says of one user whether they are typing, and nothing about the others. -/
theorem mem_applyTo (typing : List UserId) (r : TypingReport) :
    user ∈ r.applyTo typing ↔ if r.user = user then r.on = true else user ∈ typing := by
  obtain ⟨user', on⟩ := r
  by_cases own : user' = user
  · cases on <;> simp [applyTo, own]
    split <;> simp_all
  · cases on
    · simp [applyTo, own, Ne.symm own]
    · simp [applyTo, own]
      split <;> simp [Ne.symm own]

private theorem account_nil (localUser : UserId) : Account localUser [] [] where
  once := .nil
  mem_iff user := by simp [last?]
  ordered := .nil

variable {localUser : UserId} {typing : List UserId}

private theorem Account.mem_concat_iff (h : Account localUser reports typing) (r : TypingReport)
    (heeded : r.heeded localUser = true) (user : UserId) :
    user ∈ r.applyTo typing ↔
      user ≠ localUser ∧ last? user (reports ++ [r]) = some ⟨user, true⟩ := by
  rw [mem_applyTo, last?_concat]
  obtain ⟨user', on⟩ := r
  by_cases own : user' = user
  · subst own
    cases on with
    | true => simpa [TypingReport.heeded] using heeded
    | false => simp
  · simpa [own] using h.mem_iff user

/-- Who does not stop has begun where they had. -/
theorem begun?_concat_of_ne {r : TypingReport} {i : Nat} (stays : r ≠ ⟨user, false⟩)
    (began : begun? user reports = some i) : begun? user (reports ++ [r]) = some i := by
  rw [begun?_concat, if_neg stays, began]
  simp

/-- Those who stay do not change places. -/
theorem Account.ordered_concat (h : Account localUser reports typing) (r : TypingReport)
    {staying : List UserId} (among : staying.Sublist typing)
    (stay : ∀ user ∈ staying, r ≠ ⟨user, false⟩) :
    staying.Pairwise (BeganBefore (reports ++ [r])) := by
  refine (h.ordered.sublist among).imp_of_mem ?_
  rintro user other mem mem' ⟨i, j, began, began', first⟩
  exact ⟨i, j, begun?_concat_of_ne (stay user mem) began,
    begun?_concat_of_ne (stay other mem') began', first⟩

/-- That the local user starts changes nothing. -/
theorem Account.concat_unheeded (h : Account localUser reports typing) (r : TypingReport)
    (unheeded : r.heeded localUser = false) : Account localUser (reports ++ [r]) typing := by
  obtain ⟨user, on⟩ := r
  obtain ⟨rfl, rfl⟩ : on = true ∧ user = localUser := by simpa [heeded] using unheeded
  refine ⟨h.once, fun other => ?_, h.ordered_concat _ (.refl _) (by simp)⟩
  rw [h.mem_iff, last?_concat]
  by_cases own : user = other <;> simp [own]

private theorem Account.exists_begun (h : Account localUser reports typing) (mem : user ∈ typing) :
    ∃ i, begun? user reports = some i :=
  Option.isSome_iff_exists.mp (isSome_begun?_iff.mpr ((h.mem_iff user).mp mem).2)

/-- Who starts and has not been typing until then begins with this start. -/
theorem Account.begun?_start (h : Account localUser reports typing) (other : user ≠ localUser)
    (absent : user ∉ typing) : begun? user (reports ++ [⟨user, true⟩]) = some reports.length := by
  have idle : begun? user reports = none := by
    rw [← Option.not_isSome_iff_eq_none, isSome_begun?_iff]
    intro started
    exact absent ((h.mem_iff user).mpr ⟨other, started⟩)
  rw [begun?_concat, idle]
  simp

/-- A report that is noted changes the list as it changes what can be read off the reports. -/
theorem Account.concat (h : Account localUser reports typing) (r : TypingReport)
    (heeded : r.heeded localUser = true) :
    Account localUser (reports ++ [r]) (r.applyTo typing) := by
  obtain ⟨user, on⟩ := r
  have mem_iff := h.mem_concat_iff ⟨user, on⟩ heeded
  cases on with
  | false =>
    refine ⟨h.once.filter _, mem_iff, h.ordered_concat _ List.filter_sublist ?_⟩
    rintro u mem stop
    obtain rfl : user = u := congrArg TypingReport.user stop
    simpa using (List.mem_filter.mp mem).2
  | true =>
    have steady := h.ordered_concat ⟨user, true⟩ (.refl _) (by simp)
    by_cases known : user ∈ typing
    · have same : applyTo typing ⟨user, true⟩ = typing := by simp [applyTo, known]
      rw [same] at mem_iff ⊢
      exact ⟨h.once, mem_iff, steady⟩
    · have longer : applyTo typing ⟨user, true⟩ = typing ++ [user] := by simp [applyTo, known]
      rw [longer] at mem_iff ⊢
      refine ⟨by simpa using List.Nodup.concat known h.once, mem_iff,
        List.pairwise_append.mpr ⟨steady, List.pairwise_singleton _ _, ?_⟩⟩
      -- Whoever was there has begun before this report came.
      intro u mem v newcomer
      obtain rfl := List.mem_singleton.mp newcomer
      obtain ⟨i, began⟩ := h.exists_begun mem
      have other : v ≠ localUser := ((mem_iff v).mp (by simp)).1
      exact ⟨i, reports.length, begun?_concat_of_ne (by simp) began, h.begun?_start other known,
        begun?_lt began⟩

/-- The list that is kept is the one that can be read off the reports. -/
theorem account_foldl (localUser : UserId) (reports : List TypingReport) :
    Account localUser reports ((reports.filter (heeded localUser)).foldl applyTo []) := by
  induction reports using List.reverseRecOn with
  | nil => exact account_nil localUser
  | append_singleton reports r ih =>
    rw [List.filter_append, List.foldl_append]
    cases noted : r.heeded localUser with
    | false => simpa [noted] using ih.concat_unheeded r noted
    | true => simpa [noted] using ih.concat r noted

end TypingReport

/-- Whatever news comes, the users who are typing in a room are those other than the local user
whose last event there is a start, each of them once, in the order in which they began: by the first
start since they last stopped or wrote. -/
theorem Chat.typing_callAll (localUser : UserId) (news : List News) (room : RoomId) :
    TypingReport.Account localUser (News.reports room news)
      ((empty.callAll (news.map (.apply localUser))).typing room) := by
  rw [callAll_eq, typing_run, News.reports_deeds]
  exact TypingReport.account_foldl localUser _

namespace Detour

def porch : RoomId := ⟨"porch", by decide⟩

def erik : UserId := ⟨"erik", by decide⟩

def dora : UserId := ⟨"dora", by decide⟩

def rumor (event : Inbound) : News := ⟨porch, event, .epoch, ⟨"7", by decide⟩⟩

/-- The first user writes a message before they start for the last time. -/
def rumors : List News := [
  rumor (.typingStarted erik),
  rumor (.typingStarted dora),
  rumor (.message ⟨none, erik, none, "done", false, none, none⟩),
  rumor (.typingStarted erik),
  rumor (.typingStarted dora)]

end Detour

example :
    (Chat.empty.callAll (Detour.rumors.map (.apply ⟨"carol", by decide⟩))).typing Detour.porch =
      [Detour.dora, Detour.erik] := by
  decide

end ChatClient
