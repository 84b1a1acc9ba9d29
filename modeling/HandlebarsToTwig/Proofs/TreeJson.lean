import HandlebarsToTwig.Node.Json
import HandlebarsToTwig.Proofs.Grammar
import HandlebarsToTwig.Proofs.JsonReading

/-! Trees written as JSON and read back. Both layouts of a tree are read as that tree as long as
lists and objects do not nest too deep for the reader. -/
namespace HandlebarsToTwig
open Json

/-- A way to lay out documents: the gaps in front of items and behind colons. -/
structure Layout where
  write : (level : Nat) → Document → Text
  line : (level : Nat) → Text
  space : Text
  isGap_line : ∀ level, IsGap (line level)
  isGap_space : IsGap space
  write_text : ∀ level value, write level (.text value) = Quoted.write value
  write_list : ∀ level items, write level (.list items) =
    '[' :: (spread (line (level + 1)) true (items.map (write (level + 1))) ++
      (if items.isEmpty then [] else line level) ++ [']'])
  write_object : ∀ level fields, write level (.object fields) =
    '{' :: (spread (line (level + 1)) true
      (fieldTexts (fields.map fun f => (f.1, space ++ write (level + 1) f.2))) ++
      (if fields.isEmpty then [] else line level) ++ ['}'])

/-- Pieces with commas between them are pieces with a lead in front of each. -/
theorem Json.eq_spread {β : Type} {join : List β → Text} {write : β → Text} {gap : Text}
    (hnil : join [] = []) (hlast : ∀ b, join [b] = gap ++ write b)
    (hmore : ∀ b c bs, join (b :: c :: bs) = gap ++ write b ++ ',' :: join (c :: bs))
    (bs : List β) : join bs = spread gap true (bs.map write) := by
  induction bs with
  | nil => simp [hnil, spread]
  | cons b bs ih =>
    cases bs with
    | nil => simp [hlast, spread, lead]
    | cons c bs => simp [hmore, ih, spread, lead]

namespace Json.Document

theorem compactItems_eq (ds : List Document) :
    compactItems ds = spread [] true (ds.map compact) := by
  apply eq_spread <;> simp [compactItems]

theorem compactFields_eq (fields : List (Text × Document)) :
    compactFields fields =
      spread [] true (fieldTexts (fields.map fun f => (f.1, compact f.2))) := by
  rw [fieldTexts, List.map_map]
  apply eq_spread <;> simp [compactFields, field]

theorem prettyItems_eq (level : Nat) (ds : List Document) :
    prettyItems level ds = spread (newline level) true (ds.map (pretty level)) := by
  apply eq_spread <;> simp [prettyItems]

theorem prettyFields_eq (level : Nat) (fields : List (Text × Document)) :
    prettyFields level fields = spread (newline level) true
      (fieldTexts (fields.map fun f => (f.1, ' ' :: pretty level f.2))) := by
  rw [fieldTexts, List.map_map]
  apply eq_spread <;> simp [prettyFields, field]

end Json.Document

namespace Layout

def compact : Layout where
  write := fun _ d => d.compact
  line := fun _ => []
  space := []
  isGap_line := fun _ => isGap_nil
  isGap_space := isGap_nil
  write_text := by simp [Document.compact]
  write_list := by simp [Document.compact, Document.compactItems_eq]
  write_object := by simp [Document.compact, Document.compactFields_eq]

def pretty : Layout where
  write := Document.pretty
  line := Document.newline
  space := [' ']
  isGap_line := by simp [IsGap, Document.newline, isGap]
  isGap_space := by simp [IsGap, isGap]
  write_text := by simp [Document.pretty]
  write_list := by
    intro level items
    cases items <;> simp [Document.pretty, Document.prettyItems_eq, spread]
  write_object := by
    intro level fields
    cases fields <;> simp [Document.pretty, Document.prettyFields_eq, spread, fieldTexts]

end Layout

namespace Node

mutual

/-- How deep lists and objects nest in the JSON of a node. -/
def levels : Node → Nat
  | .text _ => 1
  | .reference _ => 1
  | .block _ _ children => listLevels children + 1

def listLevels : List Node → Nat
  | [] => 1
  | n :: ns => max (n.levels + 1) (listLevels ns)

end

theorem levels_pos (n : Node) : 0 < n.levels := by
  cases n <;> simp [levels]

theorem listLevels_pos (tree : List Node) : 0 < listLevels tree := by
  cases tree with
  | nil => simp [listLevels]
  | cons n ns =>
    simp only [listLevels]
    omega

theorem listLevels_le_iff {tree : List Node} {k : Nat} :
    listLevels tree ≤ k + 1 ↔ ∀ n ∈ tree, n.levels ≤ k := by
  induction tree with
  | nil => simp [listLevels]
  | cons n ns ih =>
    rw [listLevels, Nat.max_le, ih, List.forall_mem_cons, Nat.add_le_add_iff_right]

/-- Each block around a node adds two levels, and the innermost node itself one more. -/
theorem listLevels_bounds (tree : List Node) :
    2 * listNesting tree < listLevels tree ∧ listLevels tree ≤ 2 * listNesting tree + 2 := by
  induction tree using Node.listInduction with
  | nil => simp [listNesting, listLevels]
  | text value ns ih =>
    simp only [listNesting, nesting, listLevels, levels]
    omega
  | reference name ns ih =>
    simp only [listNesting, nesting, listLevels, levels]
    omega
  | block kind args children ns ihc ihn =>
    simp only [listNesting, nesting, listLevels, levels]
    omega

mutual

/-- The record that describes a node with the long names of the types. -/
def toRecord : Node → NodeRecord
  | .text value => .mk "text".toList (some value) none none []
  | .reference name => .mk "variable".toList none (some name) none []
  | .block kind args children =>
    .mk "block".toList none (some kind.name) args (toRecords children)

def toRecords : List Node → List NodeRecord
  | [] => []
  | n :: ns => n.toRecord :: toRecords ns

end

theorem toRecords_eq_map (tree : List Node) : toRecords tree = tree.map toRecord := by
  induction tree with
  | nil => simp [toRecords]
  | cons n ns ih => simp [toRecords, ih]

theorem toDocuments_eq_map (tree : List Node) : toDocuments tree = tree.map toDocument := by
  induction tree with
  | nil => simp [toDocuments]
  | cons n ns ih => simp [toDocuments, ih]

theorem toNodes_toRecords (tree : List Node) : NodeRecord.toNodes (toRecords tree) = .ok tree := by
  have htext : NodeRecord.isText "text".toList = true := by decide
  have hreference : NodeRecord.isText "variable".toList = false ∧
      NodeRecord.isReference "variable".toList = true := by decide
  have hblock : NodeRecord.isText "block".toList = false ∧
      NodeRecord.isReference "block".toList = false ∧
      NodeRecord.isBlock "block".toList = true := by decide
  induction tree using Node.listInduction with
  | nil => rfl
  | text value ns ih =>
    simp only [toRecords, toRecord, NodeRecord.toNodes, NodeRecord.toNode, htext, if_true, ih]
    rfl
  | reference name ns ih =>
    simp only [toRecords, toRecord, NodeRecord.toNodes, NodeRecord.toNode, hreference, if_true,
      Bool.false_eq_true, if_false, ih]
    rfl
  | block kind args children ns ihc ihn =>
    simp only [toRecords, toRecord, NodeRecord.toNodes, NodeRecord.toNode, hblock, if_true,
      Bool.false_eq_true, if_false, NodeRecord.required, bind, Except.bind,
      BlockKind.ofName?_eq_some.2 rfl, ihc, ihn]
    rfl

end Node

namespace Layout
open Node NodeRecord

variable (l : Layout)

theorem isGap_last (empty : Bool) (level : Nat) : IsGap (if empty then [] else l.line level) := by
  split
  · exact isGap_nil
  · exact l.isGap_line level

theorem enclosed_list (level : Nat) (items : List Document) :
    Enclosed '[' (items.map (l.write (level + 1))) ']' (l.write level (.list items)) := by
  rw [l.write_list]
  exact ⟨_, _, row_spread (l.isGap_line _) true _, l.isGap_last _ level, rfl⟩

theorem enclosed_object (level : Nat) (fields : List (Text × Document)) :
    Enclosed '{' (fieldTexts (fields.map fun f => (f.1, l.space ++ l.write (level + 1) f.2))) '}'
      (l.write level (.object fields)) := by
  rw [l.write_object]
  exact ⟨_, _, row_spread (l.isGap_line _) true _, l.isGap_last _ level, rfl⟩

theorem text_takes (level : Nat) (s : Text) :
    Takes Json.text (l.space ++ l.write level (.text s)) (.ok s) := by
  rw [l.write_text]
  exact Json.text_takes (Quoted.spells_write s) l.isGap_space

theorem text?_takes (level : Nat) (s : Text) :
    Takes text? (l.space ++ l.write level (.text s)) (.ok (some s)) := by
  rw [l.write_text]
  exact Json.text?_takes (Quoted.spells_write s) l.isGap_space

/-- The node is read where lists and objects may still nest as deep as it does. -/
def Reads (n : Node) : Prop :=
  ∀ level k, Takes (reader k) (l.write level n.toDocument) (within (n.levels ≤ k) n.toRecord)

/-- Where nothing may be entered, no node is read. -/
theorem reads_of_succ {n : Node} (h : ∀ level k,
      Takes (reader (k + 1)) (l.write level n.toDocument)
        (within (n.levels ≤ k + 1) n.toRecord)) : l.Reads n := by
  intro level k
  cases k with
  | zero =>
    rw [within_neg (Nat.not_le.2 n.levels_pos)]
    cases n <;> simp only [toDocument, l.write_object] <;>
      exact record_none_takes _ _ _ _ (h := []) isGap_nil
  | succ k => exact h level k

theorem isItem_write (level : Nat) (n : Node) : IsItem (l.write level n.toDocument) := by
  cases n <;> simp only [toDocument, l.write_object] <;>
    exact ⟨'{', _, rfl, by decide, by decide⟩

/-- A list is read if each of its nodes is. -/
theorem list_takes {tree : List Node} (h : ∀ n ∈ tree, l.Reads n) (level k : Nat) {g : Text}
    (hg : IsGap g) :
    Takes (listReader k) (g ++ l.write level (.list (toDocuments tree)))
      (within (listLevels tree ≤ k) (toRecords tree)) := by
  cases k with
  | zero =>
    rw [within_neg (Nat.not_le.2 (listLevels_pos tree)), l.write_list]
    exact list_none_takes _ hg
  | succ k =>
    have hlist := l.enclosed_list level (toDocuments tree)
    rw [toDocuments_eq_map, List.map_map, ← toDocuments_eq_map] at hlist
    rw [toRecords_eq_map, ← mapM_within listLevels_le_iff]
    exact Json.list_takes (fun n hn => ⟨l.isItem_write (level + 1) n, h n hn (level + 1) k⟩) hlist
      hg

/-- A node is read from the fields of its object. -/
theorem object_takes (fields : List (Text × Document)) {level k : Nat} {o : Except Fault Draft}
    {r : Draft → NodeRecord}
    (hfill : Fills (Draft.slots (listReader k)) false {}
      (fieldTexts (fields.map fun f => (f.1, l.space ++ l.write (level + 1) f.2))) o)
    (hcomplete : ∀ draft, o = .ok draft → draft.complete = some (r draft)) :
    Takes (reader (k + 1)) (l.write level (.object fields)) (o.map r) := by
  have hfield : ∀ p ∈ fieldTexts (fields.map fun f => (f.1, l.space ++ l.write (level + 1) f.2)),
      ∃ key s, IsField key s p :=
    List.forall_mem_map.2 fun f _ => ⟨f.1, f.2, isField_field f.1 f.2⟩
  exact record_takes hfill hfield hcomplete (l.enclosed_object level fields) isGap_nil

theorem reads_text (value : Text) : l.Reads (.text value) := by
  refine l.reads_of_succ fun level k => ?_
  rw [within_pos (by simp [levels])]
  refine l.object_takes _ (r := fun _ => toRecord (.text value))
    (o := .ok { type := some "text".toList, value := some (some value) }) ?_ ?_
  · refine .step (isField_field _ _) rfl rfl (Slot.of_takes (l.text_takes _ _) _) ?_
    exact .step (isField_field _ _) rfl rfl (Slot.of_takes (l.text?_takes _ _) _) (.done _)
  · rintro draft ⟨rfl⟩
    rfl

theorem reads_reference (name : Text) : l.Reads (.reference name) := by
  refine l.reads_of_succ fun level k => ?_
  rw [within_pos (by simp [levels])]
  refine l.object_takes _ (r := fun _ => toRecord (.reference name))
    (o := .ok { type := some "variable".toList, name := some (some name) }) ?_ ?_
  · refine .step (isField_field _ _) rfl rfl (Slot.of_takes (l.text_takes _ _) _) ?_
    exact .step (isField_field _ _) rfl rfl (Slot.of_takes (l.text?_takes _ _) _) (.done _)
  · rintro draft ⟨rfl⟩
    rfl

/-- The nodes of a block are its last field, so they alone can make its reading fail. -/
theorem reads_block {children : List Node} (hc : ∀ n ∈ children, l.Reads n) (kind : BlockKind)
    (args : Option Text) : l.Reads (.block kind args children) := by
  refine l.reads_of_succ fun level k => ?_
  have hnodes := l.list_takes hc (level + 1) k l.isGap_space
  have hlast (draft : Draft) (hd : draft.nodes = none) :
      Fills (Draft.slots (listReader k)) false draft
      [field "nodes".toList (l.space ++ l.write (level + 1) (.list (toDocuments children)))]
      (within (listLevels children ≤ k) { draft with nodes := some (toRecords children) }) := by
    have hfree : draft.nodes.isSome = false := by rw [hd]; rfl
    by_cases h : listLevels children ≤ k
    · rw [within_pos h] at hnodes ⊢
      exact .step (isField_field _ _) rfl hfree (Slot.of_takes hnodes _) (.done _)
    · rw [within_neg h] at hnodes ⊢
      exact .stop (isField_field _ _) rfl hfree (Slot.of_takes hnodes _)
  simp only [levels, Nat.add_le_add_iff_right]
  rw [← within_map fun _ => toRecord (.block kind args children)]
  refine l.object_takes _ (o := within (listLevels children ≤ k)
    ⟨some "block".toList, none, some (some kind.name), args.map some, some (toRecords children)⟩)
    ?_ ?_
  · refine .step (isField_field _ _) rfl rfl (Slot.of_takes (l.text_takes _ _) _) ?_
    refine .step (isField_field _ _) rfl rfl (Slot.of_takes (l.text?_takes _ _) _) ?_
    cases args with
    | none => exact hlast _ rfl
    | some s =>
      exact .step (isField_field _ _) rfl rfl (Slot.of_takes (l.text?_takes _ s) _) (hlast _ rfl)
  · intro draft hd
    obtain ⟨-, rfl⟩ := within_eq_ok.1 hd
    cases args <;> rfl

theorem reads_of_mem (tree : List Node) : ∀ n ∈ tree, l.Reads n := by
  induction tree using Node.listInduction with
  | nil => simp
  | text value ns ih => exact List.forall_mem_cons.2 ⟨l.reads_text value, ih⟩
  | reference name ns ih => exact List.forall_mem_cons.2 ⟨l.reads_reference name, ih⟩
  | block kind args children ns ihc ihn =>
    exact List.forall_mem_cons.2 ⟨l.reads_block ihc kind args, ihn⟩

/-- A tree in any layout is read as itself if it does not nest too deep for the reader, and is
refused otherwise. -/
theorem listOfJson_write (tree : List Node) {g : Text} (hg : IsGap g) :
    Node.listOfJson (l.write 0 (.list (toDocuments tree)) ++ g) =
      if listLevels tree ≤ maxLevels then .ok tree else .error (.json .malformed) := by
  have htake : Takes (listReader maxLevels) (l.write 0 (.list (toDocuments tree))) _ :=
    l.list_takes (l.reads_of_mem tree) 0 maxLevels isGap_nil
  unfold Node.listOfJson NodeRecord.listOfJson
  rw [readWhole_of_takes htake hg]
  by_cases h : listLevels tree ≤ maxLevels
  · rw [within_pos h, if_pos h]
    exact toNodes_toRecords tree
  · rw [within_neg h, if_neg h]
    rfl

end Layout

end HandlebarsToTwig
