import HandlebarsToTwig.Proofs.TreeJson

/-! Trees on one line of JSON. The lists and objects of a written tree stand at levels that only the
blocks around each node decide, and the tree is read back as long as none of them stands too
deep. -/
namespace HandlebarsToTwig

namespace Json.Document

mutual

/-- The levels at which lists and objects stand in a document that itself stands at `level`. -/
def levels (level : Nat) : Document → List Nat
  | .text _ => []
  | .list items => level :: itemLevels (level + 1) items
  | .object fields => level :: fieldLevels (level + 1) fields

def itemLevels (level : Nat) : List Document → List Nat
  | [] => []
  | d :: ds => d.levels level ++ itemLevels level ds

def fieldLevels (level : Nat) : List (Text × Document) → List Nat
  | [] => []
  | (_, d) :: fields => d.levels level ++ fieldLevels level fields

end

end Json.Document

namespace Node
open Json

mutual

/-- The levels that a node inside of `k` blocks takes up: that of its object and, for a block, that
of the list of its nodes and those of the nodes. -/
def taken (k : Nat) : Node → List Nat
  | .text _ => [2 * k + 2]
  | .reference _ => [2 * k + 2]
  | .block _ _ children => (2 * k + 2) :: (2 * k + 3) :: listTaken (k + 1) children

def listTaken (k : Nat) : List Node → List Nat
  | [] => []
  | n :: ns => n.taken k ++ listTaken k ns

end

/-- The levels that a whole tree takes up, the list of its nodes included. -/
def jsonLevels (tree : List Node) : List Nat := 1 :: listTaken 0 tree

/-- The nodes of a block stand two levels further in than the block. -/
theorem itemLevels_toDocuments (tree : List Node) (k : Nat) :
    Document.itemLevels (2 * k + 2) (toDocuments tree) = listTaken k tree := by
  induction tree using Node.listInduction generalizing k with
  | nil => simp [toDocuments, Document.itemLevels, listTaken]
  | text value ns ih =>
    simp [toDocuments, toDocument, Document.itemLevels, Document.levels, Document.fieldLevels,
      listTaken, taken, ih]
  | reference name ns ih =>
    simp [toDocuments, toDocument, Document.itemLevels, Document.levels, Document.fieldLevels,
      listTaken, taken, ih]
  | block kind args children ns ihc ihn =>
    have hinside : Document.itemLevels (2 * k + 2 + 1 + 1) (toDocuments children) =
        listTaken (k + 1) children := ihc (k + 1)
    cases args <;>
      simp [toDocuments, toDocument, Document.itemLevels, Document.levels, Document.fieldLevels,
        listTaken, taken, ihn, hinside]

theorem levels_list_toDocuments (tree : List Node) :
    (Document.list (toDocuments tree)).levels 1 = jsonLevels tree := by
  rw [Document.levels, jsonLevels, ← itemLevels_toDocuments tree 0]

theorem listLevels_cons_add_le_iff {n : Node} {ns : List Node} {k bound : Nat}
    (hn : n.levels + 1 + 2 * k ≤ bound ↔ ∀ level ∈ n.taken k, level ≤ bound)
    (hns : listLevels ns + 2 * k ≤ bound ↔
      2 * k + 1 ≤ bound ∧ ∀ level ∈ listTaken k ns, level ≤ bound) :
    listLevels (n :: ns) + 2 * k ≤ bound ↔
      2 * k + 1 ≤ bound ∧ ∀ level ∈ listTaken k (n :: ns), level ≤ bound := by
  have hmax : listLevels (n :: ns) + 2 * k ≤ bound ↔
      n.levels + 1 + 2 * k ≤ bound ∧ listLevels ns + 2 * k ≤ bound := by
    rw [listLevels]
    omega
  rw [hmax, hn, hns, listTaken, List.forall_mem_append]
  exact and_left_comm

/-- A tree inside of `k` blocks fits if all its levels do, and that of the list it stands in. -/
theorem listLevels_add_le_iff (tree : List Node) (k bound : Nat) :
    listLevels tree + 2 * k ≤ bound ↔
      2 * k + 1 ≤ bound ∧ ∀ level ∈ listTaken k tree, level ≤ bound := by
  induction tree using Node.listInduction generalizing k with
  | nil =>
    simp only [listLevels, listTaken, List.not_mem_nil, false_implies, implies_true, and_true]
    omega
  | text value ns ih =>
    refine listLevels_cons_add_le_iff ?_ (ih k)
    simp only [levels, taken, List.forall_mem_singleton]
    omega
  | reference name ns ih =>
    refine listLevels_cons_add_le_iff ?_ (ih k)
    simp only [levels, taken, List.forall_mem_singleton]
    omega
  | block kind args children ns ihc ihn =>
    refine listLevels_cons_add_le_iff ?_ (ihn k)
    have hlevels : (block kind args children).levels + 1 + 2 * k =
        listLevels children + 2 * (k + 1) := by
      rw [levels]
      omega
    rw [hlevels, ihc (k + 1), taken, List.forall_mem_cons, List.forall_mem_cons]
    constructor
    · rintro ⟨hlist, hinside⟩
      exact ⟨by omega, by omega, hinside⟩
    · rintro ⟨-, hlist, hinside⟩
      exact ⟨by omega, hinside⟩

theorem listLevels_le_iff_jsonLevels (tree : List Node) (bound : Nat) :
    listLevels tree ≤ bound ↔ ∀ level ∈ jsonLevels tree, level ≤ bound := by
  simpa [jsonLevels] using listLevels_add_le_iff tree 0 bound

/-- Every tree, whatever its texts, names and arguments are, is read back from its JSON as itself if
no list or object in there stands deeper than at level 127, and is refused as malformed JSON
otherwise. The list of the tree stands at level 1, a node inside of `k` blocks at level `2 * k + 2`
and the list of its nodes at level `2 * k + 3`. -/
theorem listOfJson_listToJson (tree : List Node) :
    (Document.list (toDocuments tree)).levels 1 = jsonLevels tree ∧
    listOfJson (listToJson tree) =
      if ∀ level ∈ jsonLevels tree, level ≤ 127 then .ok tree else .error (.json .malformed) := by
  refine ⟨levels_list_toDocuments tree, ?_⟩
  have hread := Layout.compact.listOfJson_write tree isGap_nil
  have hwritten : Layout.compact.write 0 (.list (toDocuments tree)) = listToJson tree := rfl
  rw [hwritten, List.append_nil] at hread
  simp only [hread, NodeRecord.maxLevels, listLevels_le_iff_jsonLevels]

end Node

end HandlebarsToTwig
