import ChatClient.Proofs.Json.RoundTrip
import ChatClient.Proofs.Json.Skipping

/-!
# Reading what others have written

A reader must not depend on how a value is spelled. A text is read from any of its spellings. A
record is read from an object whatever the order of its members, the space between them and the
spelling of their names, and members that belong to no field are passed over. It is also read from a
list of its first fields, if those that are left off can be spared.

## Main definitions

* `Record.Gathers`: what the members of an object make of a draft, among them strange ones
* `Record.Lists`: what the elements of a list make of a draft

## Main results

* `readQuoted_of_spells`: a text is read from any of its spellings
* `spells_quoteBody`: its written form is one of them
* `Record.read_object`, `Record.read_list`: a record is read from an object and from a list
-/

namespace ChatClient.Json

/-! ## Texts -/

/-- The number of a character is no half of another one. -/
theorem not_half (c : Char) : isTrail c.toNat = false ∧ isLead c.toNat = false := by
  have valid : c.toNat < 0xD800 ∨ 0xDFFF < c.toNat ∧ c.toNat < 0x110000 := c.valid
  simp only [isTrail, isLead, Bool.and_eq_false_iff, decide_eq_false_iff_not]
  omega

private theorem readQuoted_of_spellsChar {c : Char} {part : List Char} (h : SpellsChar c part)
    (acc rest : List Char) : readQuoted acc (part ++ rest) = readQuoted (c :: acc) rest := by
  cases h with
  | plain printable quote backslash =>
    rw [List.cons_append, List.nil_append, readQuoted.eq_def]
    simp [quote, backslash, Nat.not_lt.mpr printable]
  | short escape =>
    obtain ⟨stands, letter⟩ := unescape?_of_mem escape
    simp only [List.cons_append, List.nil_append]
    rw [readQuoted.eq_def]
    simp [stands, letter]
  | unit number =>
    simp only [List.cons_append, List.nil_append]
    rw [readQuoted.eq_def]
    simp [number, not_half c]
  | @halves _ _ _ _ _ _ _ _ _ lead trail lead_eq trail_eq lead_mem trail_mem number =>
    -- Two halves make one character, and neither of them is taken for one by itself.
    have isLead_eq : isLead lead = true := by simpa [isLead] using lead_mem
    have isTrail_eq : isTrail trail = true := by simpa [isTrail] using trail_mem
    have notTrail : isTrail lead = false := by simp [isTrail]; omega
    have joined : joinHalves lead trail = c := by rw [joinHalves, ← number, Char.ofNat_toNat]
    simp only [List.cons_append, List.nil_append]
    rw [readQuoted.eq_def]
    simp [lead_eq, trail_eq, isLead_eq, isTrail_eq, notTrail, joined]

/-- A text is read from any of its spellings. -/
theorem readQuoted_of_spells {s body : List Char} (h : Spells s body) (acc rest : List Char) :
    readQuoted acc (body ++ '"' :: rest) = .ok (acc.reverse ++ s, rest) := by
  induction h generalizing acc with
  | nil =>
    rw [List.nil_append, readQuoted.eq_def]
    simp
  | cons first _ ih =>
    rw [List.append_assoc, readQuoted_of_spellsChar first, ih]
    simp

/-- What spells a character can be passed over. -/
theorem isQuotable_of_spells {s body : List Char} (h : Spells s body) : IsQuotable body := by
  induction h with
  | nil => exact .nil
  | cons first _ ih =>
    cases first with
    | plain printable quote backslash => exact .plain printable quote backslash ih
    | short escape => exact .short escape ih
    | unit number => exact .unit number ih
    | halves lead trail _ _ _ => exact .unit lead (.unit trail ih)

private theorem mem_shortEscapes {c letter : Char} (h : shortEscape? c = some letter) :
    (letter, c) ∈ shortEscapes := by
  unfold shortEscape? at h
  repeat' split at h
  all_goals cases h <;> simp_all [shortEscapes]

private theorem spellsChar_quoteChar (c : Char) : SpellsChar c (quoteChar c) := by
  unfold quoteChar
  cases escape : shortEscape? c with
  | some letter => exact .short (mem_shortEscapes escape)
  | none =>
    obtain ⟨quote, backslash⟩ := ne_of_shortEscape?_eq_none escape
    by_cases control : c.toNat < 0x20
    · simp only [if_pos control]
      exact .unit (hexUnit?_control control)
    · simp only [if_neg control]
      exact .plain (Nat.not_lt.mp control) quote backslash

/-- The written form of a text is one of its spellings. -/
theorem spells_quoteBody (cs : List Char) : Spells cs (quoteBody cs) := by
  induction cs with
  | nil => exact .nil
  | cons c cs ih => exact .cons (spellsChar_quoteChar c) ih

/-- What is written for a text is one of its spellings. -/
theorem isText_quote (s : String) : IsText s (quote s) := .quoted (spells_quoteBody s.toList)

section Texts

variable {s : String} {cs : List Char} (h : IsText s cs)
include h

/-- A text is a value. -/
theorem IsText.isValue : IsValue cs := by
  obtain ⟨spells⟩ := h
  exact .text (isQuotable_of_spells spells)

/-- A text is read from each of its spellings. -/
theorem text_of_isText {space : List Char} (isSpacing : IsSpacing space) (rest : List Char) :
    text (space ++ (cs ++ rest)) = .ok (s, rest) := by
  obtain ⟨spells⟩ := h
  rename_i body
  have read := readQuoted_of_spells spells [] rest
  have quoted : '"' :: body ++ ['"'] ++ rest = '"' :: (body ++ '"' :: rest) := by simp
  rw [text, skipSpace_spacing isSpacing, quoted, skipSpace_cons (by decide)]
  simp only [read, bind, Except.bind]
  simp [pure, Except.pure]

/-- A text does not begin as `null` does. -/
theorem nullable_of_isText {space : List Char} (isSpacing : IsSpacing space) (rest : List Char) :
    nullable text (space ++ (cs ++ rest)) = .ok (some s, rest) := by
  have read := text_of_isText h isSpacing_nil rest
  obtain ⟨spells⟩ := h
  rw [nullable, skipSpace_spacing isSpacing]
  exact nullable_cons (by decide) (by decide) read

end Texts

/-- There may be space in front of a missing value. -/
theorem nullable_spacing {α : Type} (read : Reader α) {space : List Char} (h : IsSpacing space)
    (rest : List Char) :
    nullable read (space ++ (['n', 'u', 'l', 'l'] ++ rest)) = .ok (none, rest) := by
  have read_null := nullable_null read rest
  rw [nullable, skipSpace_spacing h]
  exact read_null

/-! ## Records -/

section Records

variable {δ α : Type}

namespace Record

/-- A member is written without any space. -/
theorem isMember_writeMember (m : Member) : IsMember m (writeMember m) := by
  have isMember :=
    IsMember.mk isSpacing_nil (spells_quoteBody m.1.toList) isSpacing_nil isSpacing_nil
    isSpacing_nil
  simpa [writeMember, quote] using isMember

/-- What is written for the members of an object are its members. -/
theorem separated_commaSeparated {members : List Member} (some : members ≠ []) :
    Separated IsMember members (commaSeparated (members.map writeMember)) := by
  induction members with
  | nil => exact absurd rfl some
  | cons m members ih =>
    cases members with
    | nil => exact .last (isMember_writeMember m)
    | cons next members => exact .more (isMember_writeMember m) (ih (by simp))

/-- The field takes the value into the draft, whatever space comes first. -/
def Takes (field : Field δ) (value : List Char) (draft draft' : δ) : Prop :=
  ∀ space rest, IsSpacing space → field.read draft (space ++ (value ++ rest)) = .ok (draft', rest)

/-- The members of an object make a draft into another one. A member may belong to a field that was
not met before, and is taken by it, or to none, and is passed over. -/
inductive Gathers (fields : List (Field δ)) : List String → δ → List Member → δ → Prop
  | nil (seen : List String) (draft : δ) : Gathers fields seen draft [] draft
  | field {seen : List String} {draft draft' draft'' : δ} {name : String} {value : List Char}
      {field : Field δ} {members : List Member}
      (found : fields.find? (fun field => field.name == name) = some field) (fresh : name ∉ seen)
      (takes : Takes field value draft draft')
      (more : Gathers fields (name :: seen) draft' members draft'') :
      Gathers fields seen draft ((name, value) :: members) draft''
  | strange {seen : List String} {draft draft' : δ} {name : String} {value : List Char}
      {members : List Member}
      (strange : fields.find? (fun field => field.name == name) = none) (isValue : IsValue value)
      (more : Gathers fields seen draft members draft') :
      Gathers fields seen draft ((name, value) :: members) draft'

private theorem memberName_of_spells {name : String} {body : List Char}
    (h : Spells name.toList body) (rest : List Char) :
    memberName (body ++ '"' :: rest) = .ok (name, rest) := by
  rw [memberName, readQuoted_of_spells h]
  change Except.ok (String.ofList ([] ++ name.toList), _) = _
  rw [List.nil_append, String.ofList_toList]

/-- What stands in front of a part: nothing in front of the first one, and else a comma, after the
space that ends the part before. -/
inductive Precedes : (first : Bool) → List Char → Prop
  | nothing : Precedes true []
  | comma {space : List Char} (isSpacing : IsSpacing space) : Precedes false (space ++ [','])

section Members

variable {fields : List (Field δ)} {seen : List String} {draft draft' : δ}

private theorem nextMember_append {first : Bool} {before space : List Char}
    (precedes : Precedes first before) (isSpacing : IsSpacing space) (cs : List Char) :
    nextMember first (before ++ (space ++ '"' :: cs)) = .ok (some cs, []) := by
  have quoted : skipSpace (space ++ '"' :: cs) = '"' :: cs := by
    rw [skipSpace_spacing isSpacing, skipSpace_cons (by decide)]
  cases precedes with
  | nothing => simp [nextMember, quoted]
  | comma before =>
    rw [List.append_assoc, nextMember, skipSpace_spacing before, List.cons_append,
      skipSpace_cons (by decide)]
    simp [quoted]

private theorem membersFrom_of_strange {fuel : Nat} {first : Bool}
    {cs text extra after value rest : List Char} {name : String}
    (next : nextMember first cs = .ok (some text, extra))
    (named : memberName text = .ok (name, after)) (colon : expect ':' after = .ok value)
    (strange : fields.find? (fun field => field.name == name) = none)
    (skipped : skipValue value = .ok rest) :
    membersFrom fields (fuel + 1) first seen draft cs =
      membersFrom fields fuel false seen draft rest := by
  rw [membersFrom, next]
  simp only [bind, Except.bind, named, strange, colon, skipped]

/-- One member of an object is taken or passed over, up to the space that ends it. -/
theorem membersFrom_member {first : Bool} {before text : List Char} {m : Member}
    {members : List Member} (gathers : Gathers fields seen draft (m :: members) draft')
    (precedes : Precedes first before) (isMember : IsMember m text) :
    ∃ seen' draft'' space, Gathers fields seen' draft'' members draft' ∧ IsSpacing space ∧
      ∀ fuel rest, EndsValue rest →
        membersFrom fields (fuel + 1) first seen draft (before ++ (text ++ rest)) =
          membersFrom fields fuel false seen' draft'' (space ++ rest) := by
  obtain ⟨spaceFirst, spells, spaceColon, spaceValue, spaceLast⟩ := isMember
  rename_i name _ space after
  have next (rest : List Char) := nextMember_append precedes spaceFirst (name ++ '"' :: rest)
  have named (rest : List Char) := memberName_of_spells spells rest
  have colon (rest : List Char) := expect_append (c := ':') (by decide) spaceColon rest
  simp only [List.append_assoc, List.cons_append]
  cases gathers with
  | field found fresh takes more =>
    refine ⟨_, _, after, more, spaceLast, fun fuel rest _ => ?_⟩
    exact membersFrom_of_next (next _) (named _) (colon _) found fresh (takes space _ spaceValue)
  | strange strange isValue more =>
    refine ⟨_, _, after, more, spaceLast, fun fuel rest ends => ?_⟩
    have ends := endsValue_append spaceLast ends
    exact membersFrom_of_strange (next _) (named _) (colon _) strange
      (skipValue_append spaceValue isValue ends)

private theorem membersFrom_separated {members : List Member} {text : List Char}
    (separated : Separated IsMember members text) {first : Bool} {before : List Char}
    (gathers : Gathers fields seen draft members draft') (precedes : Precedes first before)
    {fuel : Nat} (enough : members.length < fuel) (rest : List Char) :
    membersFrom fields fuel first seen draft (before ++ (text ++ '}' :: rest)) =
      .ok (draft', rest) := by
  -- The space after a member is left to the next step, which finds the comma or the bracket there.
  induction separated generalizing first before seen draft fuel with
  | last isMember =>
    obtain ⟨seen', draft'', space, more, isSpacing, taken⟩ :=
      membersFrom_member gathers precedes isMember
    obtain ⟨fuel, rfl⟩ : ∃ n, fuel = n + 2 := Nat.exists_eq_add_of_le' enough
    have closed : EndsValue ('}' :: rest) := endsValue_closer .object rest
    rw [taken _ _ closed]
    cases more
    rw [membersFrom, nextMember, skipSpace_spacing isSpacing, skipSpace_cons (by decide)]
    rfl
  | @more m members text others isMember separated ih =>
    obtain ⟨seen', draft'', space, more, isSpacing, taken⟩ :=
      membersFrom_member gathers precedes isMember
    obtain ⟨fuel, rfl⟩ := Nat.exists_eq_add_one_of_ne_zero (Nat.ne_of_gt (Nat.zero_lt_of_lt enough))
    have later := ih more (.comma isSpacing) (by simpa using enough)
    rw [List.append_assoc, List.cons_append, taken _ _ (endsValue_comma _)]
    simpa using later

end Members

section Elements

variable {draft draft' : δ}

/-- The elements of a list make a draft into another one. Each of them is taken by the field that is
next, and those for which there is no element left are spare. -/
inductive Lists : List (Field δ) → δ → List (List Char) → δ → Prop
  | nil {fields : List (Field δ)} (spare : fields.all Field.spare = true) (draft : δ) :
      Lists fields draft [] draft
  | cons {field : Field δ} {fields : List (Field δ)} {draft draft' draft'' : δ} {value : List Char}
      {values : List (List Char)} (isValue : IsValue value) (takes : Takes field value draft draft')
      (more : Lists fields draft' values draft'') :
      Lists (field :: fields) draft (value :: values) draft''

/-- The next element is found behind its comma, and behind any space. -/
theorem nextElement_spacing {first : Bool} {before space value : List Char}
    (precedes : Precedes first before) (isSpacing : IsSpacing space) (isValue : IsValue value)
    (rest : List Char) :
    nextElement first (before ++ (space ++ (value ++ rest))) = .ok (some (value ++ rest), []) := by
  obtain ⟨c, cs, rfl, nonspace, close, -⟩ := exists_head_of_isValue isValue
  have head : skipSpace (space ++ c :: (cs ++ rest)) = c :: (cs ++ rest) := by
    rw [skipSpace_spacing isSpacing, skipSpace_cons nonspace]
  rw [List.cons_append]
  cases precedes with
  | nothing => simp [nextElement, head, close]
  | comma before =>
    rw [List.append_assoc, nextElement, skipSpace_spacing before, List.cons_append,
      skipSpace_cons (by decide)]
    simp [head, close]

/-- At the end of a list those fields are left that can be spared. -/
theorem elementsFrom_closed {fields : List (Field δ)} {first : Bool} {space : List Char}
    (lists : Lists fields draft [] draft') (isSpacing : IsSpacing space) (rest : List Char) :
    elementsFrom fields first draft (space ++ ']' :: rest) = .ok (draft', rest) := by
  cases lists with
  | nil spare =>
    cases fields with
    | nil =>
      rw [elementsFrom, expect_append (by decide) isSpacing]
      rfl
    | cons field fields =>
      rw [elementsFrom, nextElement, skipSpace_spacing isSpacing, skipSpace_cons (by decide)]
      simp only [spare]
      rfl

/-- An element goes to the next field in the declared order. -/
theorem elementsFrom_of_next {field : Field δ} {fields : List (Field δ)} {first : Bool}
    {cs text extra rest : List Char} (next : nextElement first cs = .ok (some text, extra))
    (reads : field.read draft text = .ok (draft', rest)) :
    elementsFrom (field :: fields) first draft cs = elementsFrom fields false draft' rest := by
  rw [elementsFrom, next]
  simp only [bind, Except.bind, reads]

private theorem elementsFrom_separated {values : List (List Char)} {text : List Char}
    (separated : Separated IsElement values text) {fields : List (Field δ)} {first : Bool}
    {before : List Char} (lists : Lists fields draft values draft')
    (precedes : Precedes first before) (rest : List Char) :
    elementsFrom fields first draft (before ++ (text ++ ']' :: rest)) = .ok (draft', rest) := by
  induction separated generalizing fields first before draft with
  | last isElement =>
    obtain ⟨isSpacing, isSpacing'⟩ := isElement
    cases lists with
    | cons isValue takes more =>
      simp only [List.append_assoc]
      rw [elementsFrom_of_next (nextElement_spacing precedes isSpacing isValue _)
        (takes [] _ isSpacing_nil)]
      exact elementsFrom_closed more isSpacing' rest
  | more isElement _ ih =>
    obtain ⟨isSpacing, isSpacing'⟩ := isElement
    cases lists with
    | cons isValue takes more =>
      have later := ih more (.comma isSpacing')
      simp only [List.append_assoc]
      rw [elementsFrom_of_next (nextElement_spacing precedes isSpacing isValue _)
        (takes [] _ isSpacing_nil)]
      simpa using later

end Elements

/-- There are no more parts than characters, so the length of the text is enough fuel. -/
theorem length_le_of_separated {β : Type} {IsPart : β → List Char → Prop} {parts : List β}
    {text : List Char} (h : Separated IsPart parts text) : parts.length ≤ text.length + 1 := by
  induction h with
  | last _ => simp
  | more _ _ ih =>
    simp only [List.length_cons, List.length_append]
    omega

variable {r : Record δ α} {a : α} {draft : δ} {space text : List Char}

/-- A record is read from an object whose members make its draft. -/
theorem read_object {members : List Member} (gathers : Gathers r.fields [] r.blank members draft)
    (finished : r.finish draft = some a) (isSpacing : IsSpacing space)
    (separated : Separated IsMember members text) (rest : List Char) :
    r.read (space ++ '{' :: text ++ '}' :: rest) = .ok (a, rest) := by
  -- There is a comma between each two members, so that the fuel is enough for them.
  have enough := length_le_of_separated separated
  have fuel : members.length < (text ++ '}' :: rest).length + 1 := by
    simp only [List.length_append, List.length_cons]
    omega
  have members := membersFrom_separated separated gathers .nothing fuel rest
  rw [read, List.append_assoc, skipSpace_spacing isSpacing, List.cons_append,
    skipSpace_cons (by decide)]
  change (membersFrom _ _ _ _ _ _ >>= _) = _
  rw [List.nil_append] at members
  rw [members]
  simp only [bind, Except.bind, finished]

/-- A record is read from a list of its first fields. -/
theorem read_list {values : List (List Char)} (lists : Lists r.fields r.blank values draft)
    (finished : r.finish draft = some a) (isSpacing : IsSpacing space)
    (separated : Separated IsElement values text) (rest : List Char) :
    r.read (space ++ '[' :: text ++ ']' :: rest) = .ok (a, rest) := by
  have elements := elementsFrom_separated separated lists .nothing rest
  rw [read, List.append_assoc, skipSpace_spacing isSpacing, List.cons_append,
    skipSpace_cons (by decide)]
  change (elementsFrom _ _ _ _ >>= _) = _
  rw [List.nil_append] at elements
  rw [elements]
  simp only [bind, Except.bind, finished]

end Record

end Records

end ChatClient.Json
