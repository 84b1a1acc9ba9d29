import HandlebarsToTwig.Proofs.FirstFault
import HandlebarsToTwig.Proofs.JsonDepth

/-! From records to nodes. The conversion descends into the nodes of every block, and yet it fails
as a flat pass over the records does that looks at each block in front of what is inside of it. What
a node does not need of its record is never looked at. -/
namespace HandlebarsToTwig.NodeRecord

def textTypes : List Text := ["text".toList, "_t".toList]
def referenceTypes : List Text := ["variable".toList, "_v".toList]
def blockTypes : List Text := ["block".toList, "#".toList]

/-- The two spellings of each type. -/
def typeSpellings : List (List Text) := [textTypes, referenceTypes, blockTypes]

/-- The record describes a node, as far as can be told without looking inside of it. -/
def Fits : NodeRecord → Prop
  | .mk type value name _ _ =>
    (type ∈ textTypes ∧ value.isSome) ∨ (type ∈ referenceTypes ∧ name.isSome) ∨
      (type ∈ blockTypes ∧ ∃ helper ∈ OpenBlocks.knownHelpers, name = some helper)

/-- What is wrong with a record in itself. A missing field is reported with the type as it is
spelled. -/
def fault? : NodeRecord → Option Error
  | .mk type value name _ _ =>
    if textTypes.contains type then
      if value.isSome then none else some (.missingField type "value".toList)
    else if referenceTypes.contains type then
      if name.isSome then none else some (.missingField type "name".toList)
    else if blockTypes.contains type then
      match name with
      | none => some (.missingField type "name".toList)
      | some helper =>
        if OpenBlocks.knownHelpers.contains helper then none else some (.unsupported helper)
    else some (.unsupported type)

mutual

/-- A record and those inside of it that are looked at, in reading order: each block in front of its
nodes. -/
def visited : NodeRecord → List NodeRecord
  | .mk type value name args nodes =>
    .mk type value name args nodes :: if blockTypes.contains type then listVisited nodes else []

def listVisited : List NodeRecord → List NodeRecord
  | [] => []
  | r :: rs => r.visited ++ listVisited rs

end

/-- No spelling stands for two types. -/
theorem notMem_of_ne {tags others : List Text} (ht : tags ∈ typeSpellings)
    (ho : others ∈ typeSpellings) (hne : tags ≠ others) {type : Text} (h : type ∈ tags) :
    type ∉ others := by
  have hdisjoint : ∀ tags ∈ typeSpellings, ∀ others ∈ typeSpellings, tags ≠ others →
      ∀ type ∈ tags, type ∉ others := by decide
  exact hdisjoint tags ht others ho hne type h

section

variable {type : Text} (value name args : Option Text) (nodes : List NodeRecord)

theorem types_disjoint :
    (type ∈ textTypes → type ∉ referenceTypes ∧ type ∉ blockTypes) ∧
      (type ∈ referenceTypes → type ∉ textTypes ∧ type ∉ blockTypes) ∧
      (type ∈ blockTypes → type ∉ textTypes ∧ type ∉ referenceTypes) := by
  refine ⟨fun h => ⟨?_, ?_⟩, fun h => ⟨?_, ?_⟩, fun h => ⟨?_, ?_⟩⟩ <;>
    exact notMem_of_ne (by decide) (by decide) (by decide) h

theorem isText_iff : isText type = true ↔ type ∈ textTypes := by
  simp only [isText, textTypes, Bool.or_eq_true, decide_eq_true_eq, List.mem_cons, List.not_mem_nil,
    or_false]

theorem isReference_iff : isReference type = true ↔ type ∈ referenceTypes := by
  simp only [isReference, referenceTypes, Bool.or_eq_true, decide_eq_true_eq, List.mem_cons,
    List.not_mem_nil, or_false]

theorem isBlock_iff : isBlock type = true ↔ type ∈ blockTypes := by
  simp only [isBlock, blockTypes, Bool.or_eq_true, decide_eq_true_eq, List.mem_cons,
    List.not_mem_nil, or_false]

theorem toNode_of_text (h : type ∈ textTypes) :
    toNode (.mk type value name args nodes) =
      (required type "value".toList value).map Node.text := by
  simp only [toNode, isText_iff, h, if_true]

theorem toNode_of_reference (h : type ∈ referenceTypes) :
    toNode (.mk type value name args nodes) =
      (required type "name".toList name).map Node.reference := by
  simp only [toNode, isText_iff, isReference_iff, h, types_disjoint.2.1 h, if_true, if_false]

/-- The helper of a block is looked up in front of the conversion of its nodes. -/
theorem toNode_of_block (h : type ∈ blockTypes) :
    toNode (.mk type value name args nodes) =
      required type "name".toList name >>= fun helper =>
        match BlockKind.ofName? helper with
        | none => .error (.unsupported helper)
        | some kind => (toNodes nodes).map (.block kind args) := by
  simp only [toNode, isText_iff, isReference_iff, isBlock_iff, h, types_disjoint.2.2 h, if_true,
    if_false]
  rfl

theorem toNode_of_unknown (h : ∀ tags ∈ typeSpellings, type ∉ tags) :
    toNode (.mk type value name args nodes) = .error (.unsupported type) := by
  simp only [typeSpellings, List.forall_mem_cons] at h
  simp only [toNode, isText_iff, isReference_iff, isBlock_iff, h, if_false]

end

theorem type_cases (type : Text) :
    type ∈ textTypes ∨ type ∈ referenceTypes ∨ type ∈ blockTypes ∨
      ∀ tags ∈ typeSpellings, type ∉ tags := by
  by_cases htext : type ∈ textTypes
  · exact .inl htext
  by_cases hreference : type ∈ referenceTypes
  · exact .inr (.inl hreference)
  by_cases hblock : type ∈ blockTypes
  · exact .inr (.inr (.inl hblock))
  simp [typeSpellings, htext, hreference, hblock]

theorem fault?_eq_none {r : NodeRecord} : r.fault? = none ↔ r.Fits := by
  obtain ⟨type, value, name, args, nodes⟩ := r
  rcases type_cases type with h | h | h | h
  · cases value <;> simp [fault?, Fits, h, types_disjoint.1 h]
  · cases name <;> simp [fault?, Fits, h, types_disjoint.2.1 h]
  · cases name <;> simp [fault?, Fits, h, types_disjoint.2.2 h]
  · simp only [typeSpellings, List.forall_mem_cons] at h
    simp [fault?, Fits, h]

/-- The outcome of a check that finds this fault, or none. -/
def verdict : Option Error → Except Error Unit
  | none => .ok ()
  | some e => .error e

theorem verdict_or (a b : Option Error) : verdict (a.or b) = verdict a >>= fun _ => verdict b := by
  cases a <;> rfl

/-- A block fails with its own fault, or else as its nodes do; nothing else looks at its nodes. -/
theorem map_toNode {type : Text} {value name args : Option Text} {nodes : List NodeRecord}
    (hnodes : ((toNodes nodes).map fun _ => ()) = verdict ((listVisited nodes).findSome? fault?)) :
    ((toNode (.mk type value name args nodes)).map fun _ => ()) =
      verdict ((visited (.mk type value name args nodes)).findSome? fault?) := by
  rcases type_cases type with h | h | h | h
  · rw [toNode_of_text _ _ _ _ h]
    cases value <;> simp [visited, fault?, h, types_disjoint.1 h, required, verdict, Except.map]
  · rw [toNode_of_reference _ _ _ _ h]
    cases name <;> simp [visited, fault?, h, types_disjoint.2.1 h, required, verdict, Except.map]
  · have hvisited : (visited (.mk type value name args nodes)).findSome? fault? =
        (fault? (.mk type value name args nodes)).or ((listVisited nodes).findSome? fault?) := by
      simp only [visited, List.contains_eq_mem, decide_eq_true_eq, h, if_true, List.findSome?_cons]
      cases fault? (.mk type value name args nodes) <;> rfl
    rw [toNode_of_block _ _ _ _ h, hvisited, verdict_or, ← hnodes]
    cases name with
    | none =>
      simp [fault?, h, types_disjoint.2.2 h, required, verdict, Except.map, bind, Except.bind]
    | some helper =>
      cases hk : BlockKind.ofName? helper with
      | none =>
        simp [fault?, h, types_disjoint.2.2 h, required, OpenBlocks.mem_knownHelpers, hk, verdict,
          Except.map, bind, Except.bind]
      | some kind =>
        simp only [fault?, List.contains_eq_mem, decide_eq_true_eq, h, types_disjoint.2.2 h,
          required, OpenBlocks.mem_knownHelpers, hk, verdict, bind, Except.bind, if_true, if_false,
          Option.isSome_some]
        cases toNodes nodes <;> rfl
  · rw [toNode_of_unknown _ _ _ _ h]
    simp only [typeSpellings, List.forall_mem_cons] at h
    simp [visited, fault?, h, verdict, Except.map]

/-- The conversion fails as the flat pass does, and passes when it does. -/
theorem map_toNodes (rs : List NodeRecord) :
    ((toNodes rs).map fun _ => ()) = verdict ((listVisited rs).findSome? fault?) := by
  induction rs using NodeRecord.listInduction with
  | nil => rfl
  | cons type value name args nodes rs ihnodes ihrs =>
    rw [listVisited, List.findSome?_append, verdict_or, ← map_toNode ihnodes, ← ihrs, toNodes]
    cases toNode (.mk type value name args nodes) with
    | error e => rfl
    | ok n => cases toNodes rs <;> rfl

theorem toNodes_eq_error_iff {rs : List NodeRecord} {e : Error} :
    toNodes rs = .error e ↔ (listVisited rs).findSome? fault? = some e := by
  have hpass := map_toNodes rs
  generalize toNodes rs = x at hpass
  generalize (listVisited rs).findSome? fault? = fault at hpass
  cases x <;> cases fault <;> simp_all [verdict, Except.map]

theorem exists_toNodes_eq_ok_iff {rs : List NodeRecord} :
    (∃ tree, toNodes rs = .ok tree) ↔ (listVisited rs).findSome? fault? = none := by
  have hpass := map_toNodes rs
  generalize toNodes rs = x at hpass
  generalize (listVisited rs).findSome? fault? = fault at hpass
  cases x <;> cases fault <;> simp_all [verdict, Except.map]

section

variable (spelled : Text → Text → Prop)

mutual

/-- Two records agree on all that is needed of them, apart from how their types are spelled: a text
needs its value, a reference its name, and a block its name, its arguments and its nodes. -/
def Alike : NodeRecord → NodeRecord → Prop
  | .mk type value name args nodes, .mk type' value' name' args' nodes' =>
    spelled type type' ∧ (type ∈ textTypes → value = value') ∧
      (type ∈ referenceTypes → name = name') ∧
      (type ∈ blockTypes → name = name' ∧ args = args' ∧ ListAlike nodes nodes')

def ListAlike : List NodeRecord → List NodeRecord → Prop
  | [], [] => True
  | r :: rs, r' :: rs' => r.Alike r' ∧ ListAlike rs rs'
  | _, _ => False

end

/-- Two conversions come to the same, apart from how the type of a record with a missing field is
spelled. -/
inductive SameOutcome {α : Type} : Except Error α → Except Error α → Prop
  | ok (a : α) : SameOutcome (.ok a) (.ok a)
  | unsupported (kind : Text) :
    SameOutcome (.error (.unsupported kind)) (.error (.unsupported kind))
  | missingField {type type' : Text} (field : Text) : spelled type type' →
    SameOutcome (.error (.missingField type field)) (.error (.missingField type' field))

end

/-- The spellings are equal or stand for the same type. -/
def SameType (type type' : Text) : Prop :=
  type = type' ∨ ∃ tags ∈ typeSpellings, type ∈ tags ∧ type' ∈ tags

section

variable {spelled : Text → Text → Prop} {α β : Type}

theorem SameOutcome.bind {x x' : Except Error α} (h : SameOutcome spelled x x')
    {f f' : α → Except Error β} (hf : ∀ a, SameOutcome spelled (f a) (f' a)) :
    SameOutcome spelled (x >>= f) (x' >>= f') := by
  cases h with
  | ok a => exact hf a
  | unsupported kind => exact .unsupported kind
  | missingField field h => exact .missingField field h

theorem SameOutcome.map {x x' : Except Error α} (h : SameOutcome spelled x x') (f : α → β) :
    SameOutcome spelled (x.map f) (x'.map f) := by
  cases h with
  | ok a => exact .ok (f a)
  | unsupported kind => exact .unsupported kind
  | missingField field h => exact .missingField field h

theorem SameOutcome.eq {x x' : Except Error α} (h : SameOutcome Eq x x') : x = x' := by
  cases h with
  | ok a | unsupported kind => rfl
  | missingField field h => rw [h]

theorem required_sameOutcome {type type' : Text} (h : spelled type type') (field : Text)
    (value : Option Text) :
    SameOutcome spelled (required type field value) (required type' field value) := by
  cases value with
  | none => exact .missingField field h
  | some s => exact .ok s

theorem SameType.mem_iff {type type' : Text} (h : SameType type type') {tags : List Text}
    (ht : tags ∈ typeSpellings) : type ∈ tags ↔ type' ∈ tags := by
  rcases h with rfl | ⟨others, ho, hm, hm'⟩
  · rfl
  · by_cases he : tags = others
    · subst he
      exact iff_of_true hm hm'
    · exact iff_of_false (fun h => notMem_of_ne ht ho he h hm) fun h => notMem_of_ne ht ho he h hm'

theorem toNode_sameOutcome (hspelled : ∀ type type', spelled type type' → SameType type type')
    {type type' : Text} {value name args value' name' args' : Option Text}
    {nodes nodes' : List NodeRecord}
    (h : Alike spelled (.mk type value name args nodes) (.mk type' value' name' args' nodes'))
    (hnodes : ListAlike spelled nodes nodes' →
      SameOutcome spelled (toNodes nodes) (toNodes nodes')) :
    SameOutcome spelled (toNode (.mk type value name args nodes))
      (toNode (.mk type' value' name' args' nodes')) := by
  rw [Alike] at h
  obtain ⟨htype, htext, hreference, hblock⟩ := h
  have hsame := hspelled type type' htype
  rcases type_cases type with h | h | h | h
  · rw [toNode_of_text _ _ _ _ h, toNode_of_text _ _ _ _ ((hsame.mem_iff (by decide)).1 h), htext h]
    exact (required_sameOutcome htype _ value').map _
  · rw [toNode_of_reference _ _ _ _ h,
      toNode_of_reference _ _ _ _ ((hsame.mem_iff (by decide)).1 h), hreference h]
    exact (required_sameOutcome htype _ name').map _
  · obtain ⟨rfl, rfl, hinside⟩ := hblock h
    rw [toNode_of_block _ _ _ _ h, toNode_of_block _ _ _ _ ((hsame.mem_iff (by decide)).1 h)]
    refine (required_sameOutcome htype _ name).bind fun helper => ?_
    cases BlockKind.ofName? helper with
    | none => exact .unsupported helper
    | some kind => exact (hnodes hinside).map _
  · obtain rfl : type = type' := by
      rcases hsame with heq | ⟨tags, ht, hm, -⟩
      · exact heq
      · exact absurd hm (h tags ht)
    rw [toNode_of_unknown _ _ _ _ h, toNode_of_unknown _ _ _ _ h]
    exact .unsupported type

theorem toNodes_sameOutcome (hspelled : ∀ type type', spelled type type' → SameType type type')
    {rs rs' : List NodeRecord} (h : ListAlike spelled rs rs') :
    SameOutcome spelled (toNodes rs) (toNodes rs') := by
  induction rs using NodeRecord.listInduction generalizing rs' with
  | nil =>
    cases rs' with
    | nil => exact .ok []
    | cons r' rs' => simp [ListAlike] at h
  | cons type value name args nodes rs ihnodes ihrs =>
    cases rs' with
    | nil => simp [ListAlike] at h
    | cons r' rs' =>
      obtain ⟨type', value', name', args', nodes'⟩ := r'
      rw [ListAlike] at h
      rw [toNodes, toNodes]
      refine (toNode_sameOutcome hspelled h.1 ihnodes).bind fun n => ?_
      exact (ihrs h.2).bind fun ns => .ok _

end

/-- The conversion of records reports the first fault in reading order and looks at nothing that it
does not need. It succeeds exactly if every record that it comes by fits, and fails with the own
fault of the first one that does not, where a block comes before its nodes and only blocks are
looked into. Records that differ in fields that are not needed come to the same, and so do records
whose types are spelled differently in any places, apart from the spelling in a missing field's
error. -/
theorem toNodes_first_fault (rs : List NodeRecord) :
    ((∃ tree, toNodes rs = .ok tree) ↔ ∀ r ∈ listVisited rs, r.Fits) ∧
    (∀ e, toNodes rs = .error e ↔ ∃ before r after, listVisited rs = before ++ r :: after ∧
      r.fault? = some e ∧ ∀ b ∈ before, b.Fits) ∧
    (∀ rs', ListAlike Eq rs rs' → toNodes rs' = toNodes rs) ∧
    ∀ rs', ListAlike SameType rs rs' → SameOutcome SameType (toNodes rs) (toNodes rs') := by
  refine ⟨?_, fun e => ?_, fun rs' h => ?_, fun rs' h => toNodes_sameOutcome (fun _ _ h => h) h⟩
  · simp only [exists_toNodes_eq_ok_iff, List.findSome?_eq_none_iff, fault?_eq_none]
  · simp only [toNodes_eq_error_iff, List.findSome?_eq_some_iff, fault?_eq_none]
  · exact (toNodes_sameOutcome (fun _ _ h => .inl h) h).eq.symm

-- A fault inside of a text is not seen, one inside of a block is seen before one behind the block.
example :
    toNodes
      [.mk "_t".toList (some ['a']) none none [.mk ['?'] none none none []],
        .mk "#".toList none (some "if".toList) none [.mk "_v".toList none none none []],
        .mk ['?'] none none none []] =
      .error (.missingField "_v".toList "name".toList) := rfl

end HandlebarsToTwig.NodeRecord
