import HandlebarsToTwig.Proofs.Emission
import HandlebarsToTwig.Proofs.TreeJson

/-! How deep the trees are that can be read from JSON. Each block takes a list and an object, or a
list in its place, so the levels that the reader may enter bound the blocks of what it gives, however
the text is written. -/
namespace HandlebarsToTwig

section

variable {ε α β : Type} {x : Except ε α} {b : β}

theorem bind_eq_ok {f : α → Except ε β} : x >>= f = .ok b ↔ ∃ a, x = .ok a ∧ f a = .ok b := by
  cases x <;> simp [bind, Except.bind]

theorem map_eq_ok {f : α → β} : x.map f = .ok b ↔ ∃ a, x = .ok a ∧ f a = b := by
  cases x <;> simp [Except.map]

theorem mapError_eq_ok {f : ε → β} {a : α} : x.mapError f = .ok a ↔ x = .ok a := by
  cases x with
  | error e => exact ⟨nofun, nofun⟩
  | ok a' => exact ⟨fun h => by cases h; rfl, fun h => by cases h; rfl⟩

end

namespace Json

variable {α σ ρ : Type}

/-- Whatever the reader gives has the property, from any text. -/
def Yields (read : Reader α) (P : α → Prop) : Prop :=
  ∀ ⦃s a rest⦄, read s = .ok (a, rest) → P a

theorem items_yields {item : Reader α} {P : α → Prop} (h : Yields item P) (bound : Nat)
    (first : Bool) : Yields (items item bound first) fun as => ∀ a ∈ as, P a := by
  induction bound generalizing first with
  | zero =>
    intro s as rest hs
    cases hs
  | succ bound ih =>
    intro s as rest hs
    rw [items] at hs
    obtain ⟨found, -, hs⟩ := bind_eq_ok.1 hs
    cases found with
    | none =>
      cases hs
      simp
    | some s =>
      obtain ⟨⟨a, s⟩, ha, hs⟩ := bind_eq_ok.1 hs
      obtain ⟨⟨as, s⟩, has, hs⟩ := bind_eq_ok.1 hs
      cases hs
      exact List.forall_mem_cons.2 ⟨h ha, ih false has⟩

theorem list_yields {item : Reader α} {P : α → Prop} (h : Yields item P) :
    Yields (list (some item)) fun as => ∀ a ∈ as, P a := by
  intro s as rest hs
  unfold list at hs
  split at hs
  · obtain ⟨⟨as, s⟩, has, hs⟩ := bind_eq_ok.1 hs
    obtain ⟨s, -, hs⟩ := bind_eq_ok.1 hs
    cases hs
    exact items_yields h _ _ has
  · cases hs

/-- Where nothing may be entered, there is no list. -/
theorem list_none_yields (P : List α → Prop) : Yields (list (none : Option (Reader α))) P := by
  intro s as rest hs
  unfold list at hs
  split at hs <;> cases hs

/-- Reading the value of a field keeps what holds of a draft. -/
def Slot.Keeps (slot : Slot σ) (Q : σ → Prop) : Prop := ∀ draft, Q draft → Yields (slot.fill draft) Q

theorem Slot.of_keeps {name : Text} {get : σ → Option α} {set : σ → α → σ} {read : Reader α}
    {optional : Bool} {P : α → Prop} {Q : σ → Prop} (h : Yields read P)
    (hset : ∀ draft a, Q draft → P a → Q (set draft a)) :
    (Slot.of name get set read optional).Keeps Q := by
  intro draft hq s next rest hs
  obtain ⟨⟨a, s⟩, ha, he⟩ := map_eq_ok.1 hs
  cases he
  exact hset draft a hq (h ha)

theorem byPosition_yields {Q : σ → Prop} {slots : List (Slot σ)} (h : ∀ slot ∈ slots, slot.Keeps Q)
    (first : Bool) {draft : σ} (hq : Q draft) : Yields (byPosition slots first draft) Q := by
  induction slots generalizing first draft with
  | nil =>
    intro s next rest hs
    cases hs
    exact hq
  | cons slot slots ih =>
    intro s next rest hs
    obtain ⟨hslot, hslots⟩ := List.forall_mem_cons.1 h
    rw [byPosition] at hs
    obtain ⟨found, -, hs⟩ := bind_eq_ok.1 hs
    cases found with
    | none =>
      dsimp only at hs
      split at hs
      · cases hs
        exact hq
      · cases hs
    | some s =>
      obtain ⟨⟨filled, s⟩, hfill, hs⟩ := bind_eq_ok.1 hs
      exact ih hslots false (hslot draft hq hfill) hs

theorem byName_yields {Q : σ → Prop} {slots : List (Slot σ)} (h : ∀ slot ∈ slots, slot.Keeps Q)
    (strict : Bool) (bound : Nat) (first : Bool) {draft : σ} (hq : Q draft) :
    Yields (byName slots strict bound first draft) Q := by
  induction bound generalizing first draft with
  | zero =>
    intro s next rest hs
    cases hs
  | succ bound ih =>
    intro s next rest hs
    rw [byName] at hs
    obtain ⟨found, -, hs⟩ := bind_eq_ok.1 hs
    cases found with
    | none =>
      cases hs
      exact hq
    | some s =>
      obtain ⟨⟨key, s⟩, -, hs⟩ := bind_eq_ok.1 hs
      dsimp only at hs
      split at hs
      · next slot hfind =>
        split at hs
        · cases hs
        · obtain ⟨s, -, hs⟩ := bind_eq_ok.1 hs
          obtain ⟨⟨filled, s⟩, hfill, hs⟩ := bind_eq_ok.1 hs
          have hslot := h slot (List.mem_of_find?_eq_some hfind)
          exact ih false (hslot draft hq hfill) hs
      · split at hs
        · cases hs
        · obtain ⟨s, -, hs⟩ := bind_eq_ok.1 hs
          obtain ⟨s, -, hs⟩ := bind_eq_ok.1 hs
          exact ih false hq hs

/-- A record is completed from a draft that its fields were read into, by position or by name. -/
theorem record_eq_ok {slots : List (Slot σ)} {strict : Bool} {empty : σ} {complete : σ → Option ρ}
    {s rest : Text} {r : ρ}
    (h : record (some slots) strict empty complete s = .ok (r, rest)) :
    ∃ draft t u, complete draft = some r ∧ (byPosition slots true empty t = .ok (draft, u) ∨
      byName slots strict (t.length + 1) true empty t = .ok (draft, u)) := by
  unfold record at h
  dsimp only at h
  split at h
  · cases h
  · cases h
  · next t _ _ hslots =>
    cases hslots
    obtain ⟨⟨draft, u⟩, hread, h⟩ := bind_eq_ok.1 h
    dsimp only at h
    split at h
    · next hcomplete =>
      obtain ⟨_, -, h⟩ := bind_eq_ok.1 h
      cases h
      exact ⟨draft, t, u, hcomplete, .inl hread⟩
    · cases h
  · next t _ _ hslots =>
    cases hslots
    obtain ⟨⟨draft, u⟩, hread, h⟩ := bind_eq_ok.1 h
    dsimp only at h
    split at h
    · next hcomplete =>
      obtain ⟨_, -, h⟩ := bind_eq_ok.1 h
      cases h
      exact ⟨draft, t, u, hcomplete, .inr hread⟩
    · cases h
  · cases h

theorem record_yields {Q : σ → Prop} {P : ρ → Prop} {slots : List (Slot σ)} {empty : σ}
    {complete : σ → Option ρ} (h : ∀ slot ∈ slots, slot.Keeps Q) (hempty : Q empty)
    (hcomplete : ∀ draft r, Q draft → complete draft = some r → P r) (strict : Bool) :
    Yields (record (some slots) strict empty complete) P := by
  intro s r rest hs
  obtain ⟨draft, t, u, hr, hread | hread⟩ := record_eq_ok hs
  · exact hcomplete draft r (byPosition_yields h true hempty hread) hr
  · exact hcomplete draft r (byName_yields h strict _ true hempty hread) hr

theorem record_none_yields (P : ρ → Prop) (strict : Bool) (empty : σ) (complete : σ → Option ρ) :
    Yields (record none strict empty complete) P := by
  intro s r rest hs
  unfold record at hs
  dsimp only at hs
  split at hs <;> simp_all

theorem readWhole_eq_ok {read : Reader α} {s : Text} {a : α} (h : readWhole read s = .ok a) :
    ∃ rest, read s = .ok (a, rest) := by
  obtain ⟨⟨a, rest⟩, hread, h⟩ := bind_eq_ok.1 h
  dsimp only at h
  split at h
  · cases h
    exact ⟨rest, hread⟩
  · cases h

end Json

namespace NodeRecord
open Json

mutual

/-- How deep the records nest in each other, whatever they describe. -/
def depth : NodeRecord → Nat
  | .mk _ _ _ _ nodes => listDepth nodes + 1

def listDepth : List NodeRecord → Nat
  | [] => 0
  | r :: rs => max r.depth (listDepth rs)

end

theorem listDepth_le_iff {rs : List NodeRecord} {k : Nat} :
    listDepth rs ≤ k ↔ ∀ r ∈ rs, r.depth ≤ k := by
  induction rs with
  | nil => simp [listDepth]
  | cons r rs ih => rw [listDepth, Nat.max_le, ih, List.forall_mem_cons]

/-- Of the fields of a record, only the list of its nodes can hold further records. -/
theorem Draft.slots_keep {children : Reader (List NodeRecord)} {k : Nat}
    (h : Yields children fun rs => listDepth rs ≤ k) :
    ∀ slot ∈ Draft.slots children, slot.Keeps fun draft => ∀ rs ∈ draft.nodes, listDepth rs ≤ k := by
  have hany {α : Type} (read : Reader α) : Yields read fun _ => True := fun _ _ _ _ => trivial
  simp only [Draft.slots, List.forall_mem_cons]
  refine ⟨Slot.of_keeps (hany _) ?_, Slot.of_keeps (hany _) ?_, Slot.of_keeps (hany _) ?_,
    Slot.of_keeps (hany _) ?_, Slot.of_keeps h ?_, by simp⟩
  · exact fun _ _ hq _ => hq
  · exact fun _ _ hq _ => hq
  · exact fun _ _ hq _ => hq
  · exact fun _ _ hq _ => hq
  · rintro _ rs - hrs _ ⟨rfl⟩
    exact hrs

/-- One level for the list and one for the record in it: records nest half as deep as lists and
objects may. -/
theorem reader_yields (levels : Nat) :
    (Yields (listReader levels) fun rs => listDepth rs ≤ levels / 2) ∧
      Yields (reader levels) fun r => r.depth ≤ (levels + 1) / 2 := by
  induction levels with
  | zero =>
    rw [listReader, reader]
    exact ⟨list_none_yields _, record_none_yields _ _ _ _⟩
  | succ levels ih =>
    rw [listReader, reader]
    constructor
    · intro s rs rest hs
      exact listDepth_le_iff.2 (list_yields ih.2 hs)
    · refine record_yields (Draft.slots_keep ih.1) (by simp) ?_ false
      intro draft r hq hr
      obtain ⟨type, -, rfl⟩ := Option.map_eq_some_iff.1 hr
      have hnodes : listDepth (draft.nodes.getD []) ≤ levels / 2 := by
        cases hn : draft.nodes with
        | none => simp [listDepth]
        | some rs => exact hq rs hn
      rw [depth]
      omega

/-- Induction over records: the first one goes with those after it and with those inside it. -/
@[elab_as_elim]
theorem listInduction {P : List NodeRecord → Prop} (nil : P [])
    (cons : ∀ type value name args nodes rs, P nodes → P rs →
      P (.mk type value name args nodes :: rs)) : ∀ rs, P rs
  | [] => nil
  | .mk type value name args nodes :: rs =>
    cons type value name args nodes rs (listInduction nil cons nodes) (listInduction nil cons rs)

theorem toNode_eq_ok {type : Text} {value name args : Option Text} {nodes : List NodeRecord}
    {n : Node} (h : toNode (.mk type value name args nodes) = .ok n) :
    (∃ s, n = .text s) ∨ (∃ s, n = .reference s) ∨
      ∃ kind children, toNodes nodes = .ok children ∧ n = .block kind args children := by
  rw [toNode] at h
  split at h
  · obtain ⟨s, -, rfl⟩ := map_eq_ok.1 h
    exact .inl ⟨s, rfl⟩
  · split at h
    · obtain ⟨s, -, rfl⟩ := map_eq_ok.1 h
      exact .inr (.inl ⟨s, rfl⟩)
    · split at h
      · obtain ⟨helper, -, h⟩ := bind_eq_ok.1 h
        split at h
        · cases h
        · next kind _ =>
          obtain ⟨children, hchildren, h⟩ := bind_eq_ok.1 h
          cases h
          exact .inr (.inr ⟨kind, children, hchildren, rfl⟩)
      · cases h

/-- Blocks nest no deeper than the records that describe them. Records inside of a text or a
reference describe nothing. -/
theorem listNesting_le_listDepth {rs : List NodeRecord} {tree : List Node}
    (h : toNodes rs = .ok tree) : Node.listNesting tree ≤ listDepth rs := by
  induction rs using NodeRecord.listInduction generalizing tree with
  | nil =>
    cases h
    simp [Node.listNesting]
  | cons type value name args nodes rs ihnodes ihrs =>
    rw [toNodes] at h
    obtain ⟨n, hn, h⟩ := bind_eq_ok.1 h
    obtain ⟨ns, hns, h⟩ := bind_eq_ok.1 h
    cases h
    have hrest := ihrs hns
    rw [Node.listNesting, listDepth, depth]
    rcases toNode_eq_ok hn with ⟨s, rfl⟩ | ⟨s, rfl⟩ | ⟨kind, children, hchildren, rfl⟩
    · rw [Node.nesting]
      omega
    · rw [Node.nesting]
      omega
    · have hinside := ihnodes hchildren
      rw [Node.nesting]
      omega

end NodeRecord

/-- The reader may enter 127 lists and objects, the outermost list among them. -/
theorem Node.listNesting_le_of_listOfJson {json : Text} {tree : List Node}
    (h : listOfJson json = .ok tree) : listNesting tree ≤ 63 := by
  obtain ⟨rs, hrs, htree⟩ := bind_eq_ok.1 h
  obtain ⟨rest, hread⟩ := Json.readWhole_eq_ok (mapError_eq_ok.1 hrs)
  calc listNesting tree
    _ ≤ NodeRecord.listDepth rs := NodeRecord.listNesting_le_listDepth htree
    _ ≤ NodeRecord.maxLevels / 2 := (NodeRecord.reader_yields NodeRecord.maxLevels).1 hread
    _ = 63 := rfl

/-- Every tree that can be read from JSON, however the text is written, has at most 63 blocks inside
each other, and so it is emitted under every limit from 63 on, that of the default options among
them. -/
theorem render_of_listOfJson {json : Text} {tree : List Node}
    (h : Node.listOfJson json = .ok tree) :
    Node.listNesting tree ≤ 63 ∧ (∃ out, render {} tree = .ok out) ∧
      ∀ o : Options, 63 ≤ o.maxDepth → ∃ out, render o tree = .ok out := by
  have hnesting := Node.listNesting_le_of_listOfJson h
  have hrender (o : Options) (ho : 63 ≤ o.maxDepth) : ∃ out, render o tree = .ok out := by
    have hreach := Node.listReach_le_listNesting o.dialect tree
    exact ⟨_, render_within (by omega)⟩
  exact ⟨hnesting, hrender {} (by decide), hrender⟩

/-- Conditions inside each other, with nothing in the innermost. -/
def hollow : (n : Nat) → List Node
  | 0 => []
  | n + 1 => [.block .when none (hollow n)]

theorem listNesting_hollow (n : Nat) : Node.listNesting (hollow n) = n := by
  induction n with
  | zero => rfl
  | succ n ih => simp [hollow, Node.listNesting, Node.nesting, ih]

theorem listReach_hollow (d : Dialect) (n : Nat) : Node.listReach d (hollow n) = n := by
  induction n with
  | zero => rfl
  | succ n ih => simp [hollow, Node.listReach, Node.reach, Emission.of?, ih]

theorem listLevels_hollow (n : Nat) : Node.listLevels (hollow n) = 2 * n + 1 := by
  induction n with
  | zero => rfl
  | succ n ih =>
    simp only [hollow, Node.listLevels, Node.levels, ih]
    omega

/-- Both bounds are met: the deepest conditions that can be read need a limit of 63. -/
theorem render_of_listOfJson_hollow :
    Node.listOfJson (Node.listToJson (hollow 63)) = .ok (hollow 63) ∧
    Node.listNesting (hollow 63) = 63 ∧ (∃ out, render {} (hollow 63) = .ok out) ∧
    (∃ out, render ⟨{}, 63⟩ (hollow 63) = .ok out) ∧
    render ⟨{}, 62⟩ (hollow 63) = .error (.tooDeep 62) := by
  have hread : Node.listOfJson (Node.listToJson (hollow 63)) = .ok (hollow 63) := by
    have hwrite := Layout.compact.listOfJson_write (hollow 63) Json.isGap_nil
    rw [List.append_nil] at hwrite
    refine hwrite.trans (if_pos ?_)
    rw [listLevels_hollow]
    decide
  obtain ⟨-, hdefault, hrender⟩ := render_of_listOfJson hread
  refine ⟨hread, listNesting_hollow 63, hdefault, hrender ⟨{}, 63⟩ (by decide), ?_⟩
  apply render_beyond
  rw [listReach_hollow]
  decide

end HandlebarsToTwig
