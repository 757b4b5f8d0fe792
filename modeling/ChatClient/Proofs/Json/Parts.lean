import ChatClient.Proofs.Json.Exactness
import Mathlib.Data.List.Nodup

/-!
# Records that are made of parts

The draft of a record keeps each of its parts in a place of its own. What a part has in the draft is
what its field has read last, and no other field changes it. So the order in which the members of an
object come does not matter, and the text can be read off the draft when it is finished: a part that
was met has the value that its member means, and a part that was not met has none.

A part that has no value may be left out of an object. If it is optional, it may also be there as
`null`. In a list the parts come in order, and those at the end may be left off if they are spare
and have no value.

## Main definitions

* `Part`, `Part.Says`: a part of a record, and the ways to write what it has
* `Presents`: the ways to write a draft
* `Record.IsMadeOf`: the fields of a record read its parts
* `Collects`: what the members of an object have made of a draft

## Main results

* `collects_of_membersFrom`, `gathers_of_collects`: the members of an object
* `enumerates_of_elementsFrom`, `Enumerates.lists`: the elements of a list
* `Record.exact`: a record is read from the texts that present it, and from no others
-/

namespace ChatClient.Json

/-- A part of a record with its place in the draft. -/
structure Part (δ : Type) where
  name : String
  Value : Type
  /-- What the draft has in its place. -/
  get : δ → Option Value
  put : δ → Option Value → δ
  /-- The ways to write a value of the part. -/
  Means : Value → List Char → Prop
  /-- A part without a value may be written as `null`. -/
  optional : Bool
  /-- A list may end before the part. -/
  spare : Bool

variable {δ α : Type}

/-- The ways to write what a part has. -/
inductive Part.Says (part : Part δ) : Option part.Value → List Char → Prop
  | value {a : part.Value} {text : List Char} (means : part.Means a text) : part.Says (some a) text
  | null (optional : part.optional = true) : part.Says none ['n', 'u', 'l', 'l']

/-- None of the parts has this name. -/
def IsStrange (parts : List (Part δ)) (name : String) : Prop := ∀ part ∈ parts, part.name ≠ name

/-- The text presents a draft that is made of these parts. -/
inductive Presents (parts : List (Part δ)) (d : δ) : List Char → Prop
  /-- In an object every part that has a value is a member, once. Members with other names may hold
  any value. -/
  | object {members : List Member} {text : List Char} (separated : Separated IsMember members text)
      (complete : ∀ part ∈ parts, part.name ∉ members.map Prod.fst → part.get d = none)
      (once : members.Pairwise fun m m' => m.1 = m'.1 → IsStrange parts m.1)
      (sound : ∀ m ∈ members, (∃ part ∈ parts, part.name = m.1 ∧ part.Says (part.get d) m.2) ∨
        (IsStrange parts m.1 ∧ IsValue m.2)) :
      Presents parts d ('{' :: text ++ ['}'])
  /-- A list holds the first parts. Those that are left off are spare and have no value. -/
  | list {n : Nat} {values : List (List Char)} {text : List Char}
      (separated : Separated IsElement values text)
      (elements :
        List.Forall₂ (fun part value => part.Says (part.get d) value) (parts.take n) values)
      (absent : ∀ part ∈ parts.drop n, part.spare = true ∧ part.get d = none) :
      Presents parts d ('[' :: text ++ [']'])

/-- The field reads the part. -/
structure Part.Fits (part : Part δ) (field : Field δ) : Prop where
  name : field.name = part.name
  spare : field.spare = part.spare
  exact : ∀ d, Exact (field.read d) fun d' text => ∃ o, part.Says o text ∧ d' = part.put d o

/-- The parts have places of their own in the draft, and there is nothing else in it. -/
structure Places (parts : List (Part δ)) : Prop where
  nodup : (parts.map Part.name).Nodup
  get_put : ∀ part ∈ parts, ∀ d o, part.get (part.put d o) = o
  apart : ∀ part ∈ parts, ∀ part' ∈ parts, part.name ≠ part'.name →
    ∀ d o, part.get (part'.put d o) = part.get d
  ext : ∀ d d', (∀ part ∈ parts, part.get d = part.get d') → d = d'

/-- The record is made of these parts. -/
structure Record.IsMadeOf (r : Record δ α) (parts : List (Part δ)) : Prop where
  places : Places parts
  fits : List.Forall₂ Part.Fits parts r.fields
  blank : ∀ part ∈ parts, part.get r.blank = none
  unfinished : r.finish r.blank = none

/-! ## Parts and their fields -/

/-- A part that has to be there is read by the reader of its values. -/
theorem Part.fits_required {β : Type} {read : Reader β} {Means : β → List Char → Prop}
    (exact : Exact read Means) (name : String) (get : δ → Option β) (put : δ → Option β → δ)
    (spare : Bool) :
    Part.Fits { name, Value := β, get, put, Means, optional := false, spare }
      { name, spare,
        read := fun d cs => do
          let (a, cs) ← read cs
          return (put d (some a), cs) } where
  name := rfl
  spare := rfl
  exact d := by
    refine (exact_map exact fun a => put d (some a)).congr fun d' text => ?_
    constructor
    · rintro ⟨o, said, rfl⟩
      cases said with
      | value means => exact ⟨_, means, rfl⟩
      | null impossible => cases impossible
    · rintro ⟨a, means, rfl⟩
      exact ⟨some a, .value means, rfl⟩

/-- A part that may be left off is read by a reader that accepts `null` as well. -/
theorem Part.fits_optional {β : Type} {read : Reader β} {Means : β → List Char → Prop}
    (exact : Exact (nullable read) (IsNullable Means)) (name : String) (get : δ → Option β)
    (put : δ → Option β → δ) (spare : Bool) :
    Part.Fits { name, Value := β, get, put, Means, optional := true, spare }
      { name, spare,
        read := fun d cs => do
          let (a, cs) ← nullable read cs
          return (put d a, cs) } where
  name := rfl
  spare := rfl
  exact d := by
    refine (exact_map exact fun o => put d o).congr fun d' text => ?_
    constructor
    · rintro ⟨o, said, rfl⟩
      cases said with
      | value means => exact ⟨_, .some means, rfl⟩
      | null _ => exact ⟨none, .null, rfl⟩
    · rintro ⟨o, means, rfl⟩
      cases means with
      | some means => exact ⟨_, .value means, rfl⟩
      | null => exact ⟨none, .null rfl, rfl⟩

section Fields

variable {parts : List (Part δ)} {fields : List (Field δ)}
  (fits : List.Forall₂ Part.Fits parts fields)
include fits

/-- A part is found by its name, since no other one has it. -/
theorem exists_find {part : Part δ} (nodup : (parts.map Part.name).Nodup) (mem : part ∈ parts) :
    ∃ field, fields.find? (fun field => field.name == part.name) = some field ∧
      part.Fits field := by
  induction fits with
  | nil => cases mem
  | @cons first field parts fields here _ ih =>
    obtain ⟨fresh, nodup⟩ := List.nodup_cons.1 nodup
    rcases List.mem_cons.1 mem with rfl | mem
    · exact ⟨field, by simp [here.name], here⟩
    · obtain ⟨field', found, fits⟩ := ih nodup mem
      have other : field.name ≠ part.name := by
        rw [here.name]
        intro same
        exact fresh (same ▸ List.mem_map_of_mem mem)
      exact ⟨field', by simp [other, found], fits⟩

private theorem exists_part_of_find {name : String} {field : Field δ}
    (found : fields.find? (fun field => field.name == name) = some field) :
    ∃ part ∈ parts, part.name = name ∧ part.Fits field := by
  induction fits with
  | nil => cases found
  | @cons part first parts fields here _ ih =>
    rw [List.find?_cons] at found
    split at found
    · next same =>
      cases found
      exact ⟨part, List.mem_cons_self, by rw [← here.name]; exact eq_of_beq same, here⟩
    · obtain ⟨part', mem, named, fits⟩ := ih found
      exact ⟨part', List.mem_cons_of_mem _ mem, named, fits⟩

private theorem find_eq_none_iff {name : String} :
    fields.find? (fun field => field.name == name) = none ↔ IsStrange parts name := by
  induction fits with
  | nil => simp [IsStrange]
  | cons here _ ih =>
    rw [List.find?_eq_none] at ih ⊢
    rw [IsStrange] at ih ⊢
    rw [List.forall_mem_cons, List.forall_mem_cons, ih, here.name]
    simp

end Fields

/-! ## The members of an object -/

/-- What the members of an object have made of a draft, if the parts in `seen` were met before. -/
structure Collects (parts : List (Part δ)) (seen : List String) (d : δ) (members : List Member)
    (d' : δ) : Prop where
  once : members.Pairwise fun m m' => m.1 = m'.1 → IsStrange parts m.1
  /-- A member said what the draft has in the end, or it has nothing to do with it. -/
  sound : ∀ m ∈ members,
    (∃ part ∈ parts, part.name = m.1 ∧ m.1 ∉ seen ∧ part.Says (part.get d') m.2) ∨
      (IsStrange parts m.1 ∧ IsValue m.2)
  /-- What is not met stays as it is. -/
  kept : ∀ part ∈ parts, part.name ∉ members.map Prod.fst → part.get d' = part.get d

private theorem collects_nil (parts : List (Part δ)) (seen : List String) (d : δ) :
    Collects parts seen d [] d :=
  ⟨.nil, by simp, fun _ _ _ => rfl⟩

private theorem Collects.of_strange {parts : List (Part δ)} {seen : List String} {d d' : δ}
    {m : Member} {members : List Member} (collects : Collects parts seen d (m :: members) d')
    (strange : IsStrange parts m.1) : Collects parts seen d members d' where
  once := (List.pairwise_cons.mp collects.once).2
  sound m' mem' := collects.sound m' (List.mem_cons_of_mem _ mem')
  kept part mem absent := by
    apply collects.kept part mem
    rw [List.map_cons, List.mem_cons, not_or]
    exact ⟨strange part mem, absent⟩

/-- A member that is no part is passed over. -/
theorem Collects.strange {parts : List (Part δ)} {seen : List String} {d d' : δ} {m : Member}
    {members : List Member} (later : Collects parts seen d members d')
    (strange : IsStrange parts m.1) (isValue : IsValue m.2) :
    Collects parts seen d (m :: members) d' where
  once := List.pairwise_cons.mpr ⟨fun _ _ _ => strange, later.once⟩
  sound := by
    intro m' mem
    rcases List.mem_cons.mp mem with rfl | mem
    · exact .inr ⟨strange, isValue⟩
    · exact later.sound m' mem
  kept part mem absent := by
    apply later.kept part mem
    intro met
    exact absent (List.mem_cons_of_mem _ met)

section Members

variable {parts : List (Part δ)} (places : Places parts) {seen : List String} {d d' : δ}
  {m : Member} {members : List Member} {part : Part δ} (mem : part ∈ parts)
  (named : part.name = m.1)
include places mem named

/-- A member that is a part sets its field, which no later member may set again. -/
theorem Collects.cons {o : Option part.Value}
    (later : Collects parts (m.1 :: seen) (part.put d o) members d') (fresh : m.1 ∉ seen)
    (said : part.Says o m.2) : Collects parts seen d (m :: members) d' where
  once := by
    refine List.pairwise_cons.mpr ⟨fun m' mem' same => ?_, later.once⟩
    -- A member with the same name would come after the part has been met.
    rcases later.sound m' mem' with ⟨_, _, _, fresh', _⟩ | ⟨strange, _⟩
    · exact absurd (List.mem_cons.mpr (.inl same.symm)) fresh'
    · exact same ▸ strange
  sound := by
    intro m' mem'
    rcases List.mem_cons.mp mem' with rfl | mem'
    · -- The part is not met again, so that it keeps what this member says.
      have last : part.get d' = o := by
        rw [later.kept part mem, places.get_put part mem]
        intro met
        obtain ⟨m'', mem'', same⟩ := List.mem_map.mp met
        rcases later.sound m'' mem'' with ⟨_, _, _, fresh', _⟩ | ⟨strange, _⟩
        · exact fresh' (List.mem_cons.mpr (.inl (same.trans named)))
        · exact strange part mem same.symm
      exact .inl ⟨part, mem, named, fresh, last ▸ said⟩
    · rcases later.sound m' mem' with ⟨part', mem'', named', fresh', said'⟩ | other
      · exact .inl ⟨part', mem'', named', fun met => fresh' (List.mem_cons_of_mem _ met), said'⟩
      · exact .inr other
  kept part' mem' absent := by
    rw [List.map_cons, List.mem_cons, not_or] at absent
    have other : part'.name ≠ part.name := named ▸ absent.1
    rw [later.kept part' mem' absent.2, places.apart part' mem' part mem other]

/-- What comes after a member that belongs to a part. -/
theorem Collects.tail (collects : Collects parts seen d (m :: members) d') :
    Collects parts (m.1 :: seen) (part.put d (part.get d')) members d' where
  once := (List.pairwise_cons.mp collects.once).2
  sound := by
    intro m' mem'
    rcases collects.sound m' (List.mem_cons_of_mem _ mem') with
      ⟨part', mem'', named', fresh, said⟩ | other
    · refine .inl ⟨part', mem'', named', fun met => ?_, said⟩
      rcases List.mem_cons.mp met with same | met
      · have strange := (List.pairwise_cons.mp collects.once).1 m' mem' same.symm
        exact strange part mem named
      · exact fresh met
    · exact .inr other
  kept part' mem' absent := by
    by_cases same : part'.name = part.name
    · obtain rfl := List.inj_on_of_nodup_map places.nodup mem' mem same
      rw [places.get_put part' mem']
    · rw [places.apart part' mem' part mem same]
      apply collects.kept part' mem'
      rw [List.map_cons, List.mem_cons, not_or]
      exact ⟨named ▸ same, absent⟩

end Members

namespace Record

private theorem exists_of_memberName {cs rest : List Char} {name : String}
    (h : memberName cs = .ok (name, rest)) :
    ∃ spelling, Spells name.toList spelling ∧ cs = spelling ++ '"' :: rest := by
  obtain ⟨⟨body, _⟩, read, done⟩ := exists_of_bind h
  cases done
  rw [String.toList_ofList]
  exact spells_of_readQuoted read

private theorem exists_of_nextMember_none {first : Bool} {cs rest : List Char}
    (h : nextMember first cs = .ok (none, rest)) :
    ∃ space, IsSpacing space ∧ cs = space ++ '}' :: rest := by
  rw [nextMember] at h
  split at h
  · cases h
  · next c cs' skipped =>
    split at h
    · next close =>
      cases h
      cases close
      exact exists_of_skipSpace skipped
    split at h
    · split at h
      · cases h
      · cases h
    split at h
    · split at h
      · cases h
      · split at h
        · cases h
        · cases h
    · cases h

private theorem exists_of_nextMember_some {first : Bool} {cs text extra : List Char}
    (h : nextMember first cs = .ok (some text, extra)) :
    ∃ before space, Precedes first before ∧ IsSpacing space ∧
      cs = before ++ (space ++ '"' :: text) := by
  rw [nextMember] at h
  split at h
  · cases h
  · next c cs' skipped =>
    obtain ⟨space, isSpacing, rfl⟩ := exists_of_skipSpace skipped
    split at h
    · cases h
    split at h
    · next begins =>
      split at h
      · next quote =>
        cases h
        cases begins
        cases quote
        exact ⟨[], space, .nothing, isSpacing, rfl⟩
      · cases h
    split at h
    · next later comma =>
      split at h
      · cases h
      · next d cs'' skipped' =>
        obtain ⟨space', isSpacing', rfl⟩ := exists_of_skipSpace skipped'
        split at h
        · next quote =>
          cases h
          cases comma
          cases quote
          rw [Bool.not_eq_true] at later
          cases later
          exact ⟨space ++ [','], space', .comma isSpacing, isSpacing', by simp⟩
        · cases h
    · cases h

section Members

variable {parts : List (Part δ)} (places : Places parts) {fields : List (Field δ)}
  (fits : List.Forall₂ Part.Fits parts fields) {seen : List String} {d d' : δ}
include places fits

/-- What is read up to the closing bracket are members, and they have made the draft. -/
theorem collects_of_membersFrom {fuel : Nat} {first : Bool} {cs rest : List Char}
    (h : membersFrom fields fuel first seen d cs = .ok (d', rest)) :
    ∃ members, Collects parts seen d members d' ∧ Enclosed IsMember '}' first members cs rest := by
  induction fuel generalizing first seen d cs with
  | zero => cases h
  | succ fuel ih =>
    rw [membersFrom] at h
    obtain ⟨⟨next, after⟩, next_eq, h⟩ := exists_of_bind h
    cases next with
    | none =>
      cases h
      obtain ⟨space, isSpacing, rfl⟩ := exists_of_nextMember_none next_eq
      exact ⟨[], collects_nil parts seen _, .nothing isSpacing⟩
    | some text =>
      obtain ⟨⟨name, afterName⟩, name_eq, chosen⟩ := exists_of_bind h
      obtain ⟨before, space, precedes, isSpacing, rfl⟩ := exists_of_nextMember_some next_eq
      obtain ⟨spelling, spells, rfl⟩ := exists_of_memberName name_eq
      -- What has been read of a member when its value comes.
      have member {afterColon value tail : List Char} {members : List Member} {space' : List Char}
          (colon : expect ':' afterName = .ok afterColon) (isSpacing' : IsSpacing space')
          (value_eq : afterColon = space' ++ (value ++ tail))
          (later : Enclosed IsMember '}' false members tail rest) :
          Enclosed IsMember '}' first ((name, value) :: members)
            (before ++ (space ++ '"' :: (spelling ++ '"' :: afterName))) rest := by
        obtain ⟨between, isSpacing'', rfl⟩ := exists_of_expect colon
        subst value_eq
        have isMember (after : List Char) (h : IsSpacing after) :
            IsMember (name, value)
              (space ++ '"' :: spelling ++ '"' :: between ++ ':' :: space' ++ value ++ after) :=
          .mk isSpacing spells isSpacing'' isSpacing' h
        have all := later.cons precedes isMember
        simpa using all
      dsimp only at chosen
      split at chosen
      · next strange =>
        obtain ⟨afterColon, colon, value_read⟩ := exists_of_bind chosen
        obtain ⟨afterValue, skipped, others⟩ := exists_of_bind value_read
        obtain ⟨space', value, isSpacing', isValue, value_eq⟩ := isValue_of_skipValue skipped
        obtain ⟨members, collects, later⟩ := ih others
        exact ⟨(name, value) :: members,
          collects.strange ((find_eq_none_iff fits).mp strange) isValue,
          member colon isSpacing' value_eq later⟩
      · next field found =>
        split at chosen
        · cases chosen
        · next fresh =>
          obtain ⟨afterColon, colon, value_read⟩ := exists_of_bind chosen
          obtain ⟨⟨d₁, afterValue⟩, reads, others⟩ := exists_of_bind value_read
          obtain ⟨part, mem, named, fit⟩ := exists_part_of_find fits found
          obtain ⟨space', value, isSpacing', ⟨o, said, rfl⟩, value_eq⟩ := (fit.exact d).sound reads
          obtain ⟨members, collects, later⟩ := ih others
          exact ⟨(name, value) :: members, collects.cons places mem named fresh said,
            member colon isSpacing' value_eq later⟩

/-- Such members are read into the draft that they make. -/
theorem gathers_of_collects {members : List Member} (collects : Collects parts seen d members d') :
    Gathers fields seen d members d' := by
  induction members generalizing seen d with
  | nil =>
    obtain rfl : d' = d := places.ext d' d fun part mem => collects.kept part mem (by simp)
    exact .nil seen d'
  | cons m members ih =>
    rcases collects.sound m List.mem_cons_self with
      ⟨part, mem, named, fresh, said⟩ | ⟨strange, isValue⟩
    · obtain ⟨field, found, fit⟩ := exists_find fits places.nodup mem
      rw [named] at found
      have takes : Takes field m.2 d (part.put d (part.get d')) := fun space rest isSpacing =>
        (fit.exact d).complete ⟨_, said, rfl⟩ isSpacing rest
      exact .field found fresh takes (ih (collects.tail places mem named))
    · have rest := ih (collects.of_strange strange)
      exact .strange ((find_eq_none_iff fits).mpr strange) isValue rest

end Members

end Record

/-! ## The elements of a list -/

/-- What the elements of a list make of a draft. Each of them says what the next part has, and the
parts for which there is no element left are spare. -/
inductive Enumerates : List (Part δ) → δ → List (List Char) → δ → Prop
  | nil {parts : List (Part δ)} (spare : ∀ part ∈ parts, part.spare = true) (d : δ) :
      Enumerates parts d [] d
  | cons {part : Part δ} {parts : List (Part δ)} {o : Option part.Value} {d d' : δ}
      {value : List Char} {values : List (List Char)} (said : part.Says o value)
      (more : Enumerates parts (part.put d o) values d') :
      Enumerates (part :: parts) d (value :: values) d'

section Elements

variable {parts : List (Part δ)}

section Fields

variable {fields : List (Field δ)} (fits : List.Forall₂ Part.Fits parts fields)
include fits

private theorem all_spare_iff :
    fields.all Field.spare = true ↔ ∀ part ∈ parts, part.spare = true := by
  induction fits with
  | nil => simp
  | cons here _ ih => rw [List.all_cons, Bool.and_eq_true, ih, here.spare, List.forall_mem_cons]

/-- What is read up to the closing bracket are elements, and they have made the draft. -/
theorem enumerates_of_elementsFrom {first : Bool} {d d' : δ} {cs rest : List Char}
    (h : Record.elementsFrom fields first d cs = .ok (d', rest)) :
    ∃ values, Enumerates parts d values d' ∧ Enclosed IsElement ']' first values cs rest := by
  induction fits generalizing first d cs with
  | nil =>
    obtain ⟨_, closed, done⟩ := exists_of_bind h
    cases done
    obtain ⟨space, isSpacing, rfl⟩ := exists_of_expect closed
    exact ⟨[], .nil (by simp) _, .nothing isSpacing⟩
  | @cons part field parts fields here more ih =>
    rw [Record.elementsFrom] at h
    obtain ⟨⟨next, after⟩, next_eq, chosen⟩ := exists_of_bind h
    -- A list that ends early has left out parts that may be left out.
    cases next with
    | none =>
      dsimp only at chosen
      split at chosen
      · next spare =>
        cases chosen
        obtain ⟨space, isSpacing, rfl⟩ := exists_of_nextElement_none next_eq
        exact ⟨[], .nil ((all_spare_iff (.cons here more)).mp spare) _, .nothing isSpacing⟩
      · cases chosen
    | some text =>
      obtain ⟨⟨d₁, afterValue⟩, reads, others⟩ := exists_of_bind chosen
      obtain ⟨before, space, precedes, isSpacing, rfl⟩ := exists_of_nextElement_some next_eq
      obtain ⟨space', value, isSpacing', ⟨o, said, rfl⟩, rfl⟩ := (here.exact d).sound reads
      obtain ⟨values, enumerates, later⟩ := ih others
      have isElement (after : List Char) (h : IsSpacing after) :
          IsElement value (space ++ space' ++ value ++ after) :=
        .mk (isSpacing.append isSpacing') h
      have all := later.cons precedes isElement
      exact ⟨value :: values, .cons said enumerates, by simpa using all⟩

/-- Such elements are read into the draft that they make. -/
theorem Enumerates.lists {d d' : δ} {values : List (List Char)} (h : Enumerates parts d values d') :
    Record.Lists fields d values d' := by
  induction h generalizing fields with
  | nil spare d => exact .nil ((all_spare_iff fits).mpr spare) d
  | @cons part parts o d d' value values said more ih =>
    cases fits with
    | cons here fits =>
      have takes : Record.Takes _ value d (part.put d o) := fun space rest isSpacing =>
        (here.exact d).complete ⟨o, said, rfl⟩ isSpacing rest
      exact .cons ((here.exact d).isValue ⟨o, said, rfl⟩) takes (ih fits)

end Fields

variable {all : List (Part δ)} (places : Places all) (known : ∀ part ∈ parts, part ∈ all)
  (nodup : (parts.map Part.name).Nodup)
include places known nodup

/-- The elements say what the first parts have in the end. All other parts stay as they are. -/
theorem Enumerates.spec {d d' : δ} {values : List (List Char)} (h : Enumerates parts d values d') :
    (∃ n, List.Forall₂ (fun part value => part.Says (part.get d') value) (parts.take n) values ∧
      ∀ part ∈ parts.drop n, part.spare = true ∧ part.get d' = part.get d) ∧
    ∀ part ∈ all, part.name ∉ parts.map Part.name → part.get d' = part.get d := by
  induction h with
  | nil spare d => exact ⟨⟨0, .nil, fun part mem => ⟨spare part mem, rfl⟩⟩, fun _ _ _ => rfl⟩
  | @cons part parts o d d' value values said more ih =>
    obtain ⟨mem, known⟩ := List.forall_mem_cons.mp known
    obtain ⟨fresh, nodup⟩ := List.nodup_cons.mp nodup
    obtain ⟨⟨n, elements, left⟩, kept⟩ := ih known nodup
    have here : part.get d' = o := by rw [kept part mem fresh, places.get_put part mem]
    refine ⟨⟨n + 1, .cons (here ▸ said) elements, fun part' mem' => ?_⟩, fun part' mem' other => ?_⟩
    · rw [List.drop_succ_cons] at mem'
      have mem'' := List.mem_of_mem_drop mem'
      obtain ⟨spare, same⟩ := left part' mem'
      have other : part'.name ≠ part.name := fun same => fresh (same ▸ List.mem_map_of_mem mem'')
      exact ⟨spare, by rw [same, places.apart part' (known part' mem'') part mem other]⟩
    · rw [List.map_cons, List.mem_cons, not_or] at other
      rw [kept part' mem' other.2, places.apart part' mem' part mem other.1]

/-- Elements that say what the first parts of a draft have make a draft that has the same in all
parts. -/
theorem exists_enumerates {d d₀ : δ} {n : Nat} {values : List (List Char)}
    (elements : List.Forall₂ (fun part value => part.Says (part.get d) value) (parts.take n) values)
    (absent : ∀ part ∈ parts.drop n, part.spare = true ∧ part.get d = none)
    (blank : ∀ part ∈ parts, part.get d₀ = none) :
    ∃ d', Enumerates parts d₀ values d' ∧ (∀ part ∈ parts, part.get d' = part.get d) ∧
      ∀ part ∈ all, part.name ∉ parts.map Part.name → part.get d' = part.get d₀ := by
  induction parts generalizing n values d₀ with
  | nil =>
    rw [List.take_nil] at elements
    cases elements
    exact ⟨d₀, .nil (by simp) d₀, by simp, fun _ _ _ => rfl⟩
  | cons part parts ih =>
    cases n with
    | zero =>
      cases elements
      refine ⟨d₀, .nil (fun part mem => (absent part mem).1) d₀,
        fun part mem => ?_, fun _ _ _ => rfl⟩
      rw [blank part mem, (absent part mem).2]
    | succ n =>
      cases elements with
      | cons said elements =>
        obtain ⟨mem, known⟩ := List.forall_mem_cons.mp known
        obtain ⟨fresh, nodup⟩ := List.nodup_cons.mp nodup
        have other : ∀ part' ∈ parts, part'.name ≠ part.name := fun part' mem' same =>
          fresh (same ▸ List.mem_map_of_mem mem')
        -- What is put into this part is kept by the later ones, since they have other names.
        obtain ⟨d', enumerates, same, kept⟩ := ih known nodup elements absent fun part' mem' => by
          rw [places.apart part' (known part' mem') part mem (other part' mem')]
          exact blank part' (List.mem_cons_of_mem _ mem')
        have here : part.get d' = part.get d := by rw [kept part mem fresh, places.get_put part mem]
        refine ⟨d', .cons said enumerates, List.forall_mem_cons.mpr ⟨here, same⟩, ?_⟩
        intro part' mem' other'
        rw [List.map_cons, List.mem_cons, not_or] at other'
        rw [kept part' mem' other'.2, places.apart part' mem' part mem other'.1]

end Elements

/-! ## Records -/

section Records

variable {parts : List (Part δ)} {d : δ} {text : List Char}

section Values

variable {fields : List (Field δ)} (fits : List.Forall₂ Part.Fits parts fields)
include fits

private theorem isValue_of_mem (d : δ) {part : Part δ} (mem : part ∈ parts) {o : Option part.Value}
    {value : List Char} (said : part.Says o value) : IsValue value := by
  induction fits with
  | nil => cases mem
  | cons here _ ih =>
    rcases List.mem_cons.mp mem with rfl | mem
    · exact (here.exact d).isValue ⟨o, said, rfl⟩
    · exact ih mem

/-- A presentation of a record is a value like any other. -/
theorem Presents.isValue (presents : Presents parts d text) : IsValue text := by
  cases presents with
  | object separated complete once sound =>
    refine .full (derives_of_separated separated fun m mem _ isMember => isMember.isLabelled ?_)
    rcases sound m mem with ⟨part, mem', -, said⟩ | ⟨-, isValue⟩
    · exact isValue_of_mem fits d mem' said
    · exact isValue
  | @list n values text separated elements absent =>
    have known : ∀ part ∈ parts.take n, part ∈ parts := fun _ mem => List.mem_of_mem_take mem
    have values : ∀ value ∈ values, IsValue value := by
      -- The parts that are there come from the front of the list.
      clear separated
      generalize parts.take n = taken at elements known
      induction elements with
      | nil => simp
      | cons said _ ih =>
        obtain ⟨mem, known⟩ := List.forall_mem_cons.mp known
        exact List.forall_mem_cons.mpr ⟨isValue_of_mem fits d mem said, ih known⟩
    exact .full (derives_of_separated separated fun value mem _ isElement =>
      isElement.isLabelled (values value mem))

end Values

/-- What presents a draft stands in brackets. -/
theorem Presents.head?_ne (presents : Presents parts d text) : text.head? ≠ some 'n' := by
  cases presents <;> simp

/-- Only a draft that can be finished is read. -/
theorem finished_of_eq_ok {finished : Option α} {a : α} {after rest : List Char}
    (h : (match finished with
      | some a => .ok (a, after)
      | none => .error .mismatch : Except Problem (α × List Char)) = .ok (a, rest)) :
    finished = some a ∧ after = rest := by
  cases finished with
  | none => cases h
  | some _ =>
    cases h
    exact ⟨rfl, rfl⟩

variable {r : Record δ α} (made : r.IsMadeOf parts)
include made

namespace Record

/-- A record is read from any text that presents it. -/
theorem read_of_presents {a : α} (finished : r.finish d = some a) (presents : Presents parts d text)
    {space : List Char} (isSpacing : IsSpacing space) (rest : List Char) :
    r.read (space ++ (text ++ rest)) = .ok (a, rest) := by
  obtain ⟨places, fits, blank, -⟩ := made
  cases presents with
  | object separated complete once sound =>
    have collects : Collects parts [] r.blank _ d := {
      once
      sound := fun m mem => (sound m mem).imp_left fun ⟨part, mem', named, said⟩ =>
        ⟨part, mem', named, List.not_mem_nil, said⟩
      kept := fun part mem absent => by rw [complete part mem absent, blank part mem] }
    have gathers := gathers_of_collects places fits collects
    have read := read_object gathers finished isSpacing separated rest
    simpa using read
  | list separated elements absent =>
    obtain ⟨d', enumerates, same, -⟩ := exists_enumerates places (fun _ mem => mem) places.nodup
      elements absent blank
    obtain rfl := places.ext d' d same
    have read := read_list (enumerates.lists fits) finished isSpacing separated rest
    simpa using read

/-- What a record is read from presents it. -/
theorem presents_of_read {a : α} {cs rest : List Char} (h : r.read cs = .ok (a, rest)) :
    ∃ space text d, IsSpacing space ∧ r.finish d = some a ∧ Presents parts d text ∧
      cs = space ++ (text ++ rest) := by
  obtain ⟨places, fits, blank, unfinished⟩ := made
  have begun {d : δ} (finished : r.finish d = some a) : d ≠ r.blank := by
    rintro rfl
    rw [unfinished] at finished
    cases finished
  unfold read at h
  dsimp only at h
  -- An object, a list, or nothing that makes a record.
  split at h
  · next opened =>
    obtain ⟨space, isSpacing, rfl⟩ := exists_of_skipSpace opened
    obtain ⟨⟨d, after⟩, reads, finish⟩ := exists_of_bind h
    obtain ⟨finished, rfl⟩ := finished_of_eq_ok finish
    have some_ := begun finished
    obtain ⟨members, collects, enclosed⟩ := collects_of_membersFrom places fits reads
    cases enclosed with
    | nothing _ =>
      have same := places.ext d r.blank fun part mem => collects.kept part mem (by simp)
      exact absurd same some_
    | parts precedes separated =>
      cases precedes
      have complete (part : Part δ) (mem : part ∈ parts)
          (absent : part.name ∉ members.map Prod.fst) : part.get d = none := by
        rw [collects.kept part mem absent, blank part mem]
      have sound (m : Member) (mem : m ∈ members) :
          (∃ part ∈ parts, part.name = m.1 ∧ part.Says (part.get d) m.2) ∨
            (IsStrange parts m.1 ∧ IsValue m.2) :=
        (collects.sound m mem).imp_left fun ⟨part, mem', named, _, said⟩ =>
          ⟨part, mem', named, said⟩
      exact ⟨space, _, d, isSpacing, finished,
        .object separated complete collects.once sound, by simp⟩
  · next opened =>
    obtain ⟨space, isSpacing, rfl⟩ := exists_of_skipSpace opened
    obtain ⟨⟨d, after⟩, reads, finish⟩ := exists_of_bind h
    obtain ⟨finished, rfl⟩ := finished_of_eq_ok finish
    have some_ := begun finished
    obtain ⟨values, enumerates, enclosed⟩ := enumerates_of_elementsFrom fits reads
    obtain ⟨⟨n, elements, left⟩, -⟩ := enumerates.spec places (fun _ mem => mem) places.nodup
    cases enclosed with
    | nothing _ =>
      cases enumerates
      exact absurd rfl some_
    | parts precedes separated =>
      cases precedes
      have absent (part : Part δ) (mem : part ∈ parts.drop n) :
          part.spare = true ∧ part.get d = none := by
        rw [(left part mem).2, blank part (List.mem_of_mem_drop mem)]
        exact ⟨(left part mem).1, rfl⟩
      exact ⟨space, _, d, isSpacing, finished, .list separated elements absent, by simp⟩
  · cases h

/-- A record is read from the texts that present it, and from no others. -/
theorem exact : Exact r.read fun a text => ∃ d, r.finish d = some a ∧ Presents parts d text where
  complete := by
    rintro a text space ⟨d, finished, presents⟩ isSpacing rest
    exact read_of_presents made finished presents isSpacing rest
  sound h := by
    obtain ⟨space, text, d, isSpacing, finished, presents, whole⟩ := presents_of_read made h
    exact ⟨space, text, isSpacing, ⟨d, finished, presents⟩, whole⟩
  isValue := by
    rintro a text ⟨d, -, presents⟩
    exact presents.isValue made.fits

/-- If there is one finished draft for each value, the texts are those that present it. -/
theorem exact_of_draft {draft : α → δ} (finish : ∀ d a, r.finish d = some a ↔ d = draft a) :
    Exact r.read fun a => Presents parts (draft a) := by
  refine (exact made).congr fun a text => ?_
  constructor
  · intro presents
    exact ⟨draft a, (finish _ a).mpr rfl, presents⟩
  · rintro ⟨d, finished, presents⟩
    exact (finish d a).mp finished ▸ presents

end Record

end Records

end ChatClient.Json
