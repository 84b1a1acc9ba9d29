import HandlebarsToTwig.Toml.Document
import Mathlib.Data.List.Nodup

/-! What configuration files decode to. Whatever the text is and however its tables are written, no
table has a key twice, and every integer has 64 bits. -/
namespace HandlebarsToTwig.Toml

def IsWord (n : Int) : Prop := -9223372036854775808 ≤ n ∧ n ≤ 9223372036854775807

/-- A value whose tables have each key once, and whose integers have 64 bits. -/
inductive Value.WellFormed : Value → Prop
  | text (s : Text) : WellFormed (.text s)
  | integer {n : Int} (h : IsWord n) : WellFormed (.integer n)
  | float : WellFormed .float
  | boolean : WellFormed .boolean
  | moment : WellFormed .moment
  | list {extensible : Bool} {items : List Value} (h : ∀ v ∈ items, WellFormed v) :
    WellFormed (.list extensible items)
  | table {origin : Origin} {entries : Entries} (keys : (entries.map Prod.fst).Nodup)
    (values : ∀ e ∈ entries, WellFormed e.2) : WellFormed (.table origin entries)

namespace Table

variable {t : Table} {key : Text}

theorem put_of_get?_eq_none (h : t.get? key = none) (v : Value) :
    t.put key v = ⟨t.origin, t.entries ++ [(key, v)]⟩ := by
  simp [put, h]

theorem lookup_map_replace (entries : Entries) (key k : Text) (v : Value) :
    (entries.map fun (k, old) => (k, if k = key then v else old)).lookup k =
      (entries.lookup k).map fun old => if k = key then v else old := by
  induction entries with
  | nil => rfl
  | cons e entries ih =>
    rw [List.map_cons, List.lookup_cons, List.lookup_cons, ih]
    cases hk : k == e.1 with
    | false => rfl
    | true => rw [eq_of_beq hk]; rfl

/-- A value that is put for a key is found there, and nothing else changes. -/
theorem get?_put (t : Table) (key : Text) (v : Value) (k : Text) :
    (t.put key v).get? k = if k = key then some v else t.get? k := by
  cases h : t.get? key with
  | none =>
    rw [put_of_get?_eq_none h, get?, List.lookup_append]
    by_cases hk : k = key
    · subst hk
      rw [get?] at h
      simp [h]
    · simp [get?, hk, List.lookup_cons, beq_false_of_ne hk]
  | some old =>
    rw [put, h, Option.isSome_some, if_pos rfl, get?, lookup_map_replace]
    by_cases hk : k = key
    · subst hk
      rw [get?] at h
      simp [h]
    · simp [get?, hk]

theorem change_table {dotted : Bool} {f : Table → Option Table} {child : Table} {origin : Origin}
    {entries : Entries} (h : t.get? key = some (.table origin entries))
    (horigin : ¬ (origin = .inline ∨ (dotted ∧ origin = .declared)))
    (hf : f ⟨origin, entries⟩ = some child) :
    t.change dotted f [key] = some (t.put key child.toValue) := by
  simp [change, h, horigin, hf]

theorem addEntry_new (h : t.get? key = none) (v : Value) :
    t.addEntry [] key v = some (t.put key v) := by
  simp [addEntry, change, h]

theorem addEntry_dotted_new (h : t.get? key = none) (name : Text) (v : Value) :
    t.addEntry [key] name v = some (t.put key (.table .dotted [(name, v)])) := by
  have hput : (Table.mk .dotted []).put name v = ⟨.dotted, [(name, v)]⟩ := rfl
  have hget : (Table.mk .dotted []).get? name = none := rfl
  simp [addEntry, change, h, hput, hget, toValue]

theorem addEntry_dotted {entries : Entries} (h : t.get? key = some (.table .dotted entries))
    {name : Text} (hnew : (Table.mk .dotted entries).get? name = none) (v : Value) :
    t.addEntry [key] name v = some (t.put key (.table .dotted (entries ++ [(name, v)]))) := by
  simp [addEntry, change, h, hnew, put_of_get?_eq_none hnew, toValue]

def WellFormed (t : Table) : Prop :=
  (t.entries.map Prod.fst).Nodup ∧ ∀ e ∈ t.entries, e.2.WellFormed

theorem wellFormed_empty (origin : Origin) : WellFormed ⟨origin, []⟩ := by simp [WellFormed]

theorem WellFormed.toValue {t : Table} (h : t.WellFormed) : t.toValue.WellFormed :=
  .table h.1 h.2

theorem wellFormed_of_value {origin : Origin} {entries : Entries}
    (h : (Value.table origin entries).WellFormed) : WellFormed ⟨origin, entries⟩ := by
  cases h with
  | table keys values => exact ⟨keys, values⟩

theorem WellFormed.get? {t : Table} (h : t.WellFormed) {key : Text} {v : Value}
    (hv : t.get? key = some v) : v.WellFormed := by
  obtain ⟨l₁, l₂, hl, -⟩ := List.lookup_eq_some_iff.1 hv
  exact h.2 (key, v) (by simp [hl])

theorem WellFormed.put {t : Table} (h : t.WellFormed) {v : Value} (hv : v.WellFormed)
    (key : Text) : (t.put key v).WellFormed := by
  unfold Table.put
  split
  · refine ⟨by simpa [Function.comp_def] using h.1, fun e he => ?_⟩
    obtain ⟨⟨k, old⟩, hold, rfl⟩ := List.mem_map.1 he
    dsimp only
    split
    · exact hv
    · exact h.2 (k, old) hold
  · next hnew =>
    have hkey : key ∉ t.entries.map Prod.fst := by simpa [Table.get?] using hnew
    refine ⟨?_, fun e he => ?_⟩
    · simpa using List.Nodup.concat hkey h.1
    · rcases List.mem_append.1 he with he | he
      · exact h.2 e he
      · rw [List.mem_singleton.1 he]
        exact hv

/-- What keeps the tables at the ends of paths well-formed keeps the whole well-formed. -/
theorem WellFormed.change {f : Table → Option Table}
    (hf : ∀ t t', t.WellFormed → f t = some t' → t'.WellFormed) {dotted : Bool} {path : List Text}
    {t t' : Table} (h : t.WellFormed) (ht : t.change dotted f path = some t') : t'.WellFormed := by
  induction path generalizing t t' with
  | nil => exact hf t t' h ht
  | cons key path ih =>
    rw [Table.change] at ht
    split at ht
    · obtain ⟨child, hc, hput⟩ := Option.bind_eq_some_iff.1 ht
      cases hput
      exact h.put (ih (wellFormed_empty _) hc).toValue key
    · next origin entries hentry =>
      split at ht
      · cases ht
      · obtain ⟨child, hc, hput⟩ := Option.bind_eq_some_iff.1 ht
        cases hput
        exact h.put (ih (wellFormed_of_value (h.get? hentry)) hc).toValue key
    · next items hentry =>
      cases h.get? hentry with
      | list hitems =>
        split at ht
        · next origin entries hlast =>
          obtain ⟨child, hc, hput⟩ := Option.bind_eq_some_iff.1 ht
          cases hput
          have hnewest := hitems _ (List.mem_of_getLast? hlast)
          have hchild := (ih (wellFormed_of_value hnewest) hc).toValue
          refine h.put (.list ?_) key
          rw [List.forall_mem_append, List.forall_mem_singleton]
          exact ⟨fun v hv => hitems v (List.dropLast_subset _ hv), hchild⟩
        · cases ht
    · cases ht

theorem WellFormed.addEntry {t t' : Table} (h : t.WellFormed) {path : List Text} {key : Text}
    {v : Value} (hv : v.WellFormed) (ht : t.addEntry path key v = some t') : t'.WellFormed := by
  refine h.change (fun t t' h ht => ?_) ht
  split at ht
  · cases ht
  · cases ht
    exact h.put hv key

theorem WellFormed.openTable {t t' : Table} (h : t.WellFormed) {path : List Text} {key : Text}
    (ht : t.openTable path key = some t') : t'.WellFormed := by
  refine h.change (fun t t' h ht => ?_) ht
  split at ht
  · cases ht
    exact h.put (wellFormed_empty .declared).toValue key
  · next entries hentry =>
    cases ht
    have himplied := wellFormed_of_value (h.get? hentry)
    exact h.put (.table himplied.1 himplied.2) key
  · cases ht

theorem WellFormed.extendList {t t' : Table} (h : t.WellFormed) {path : List Text} {key : Text}
    (ht : t.extendList path key = some t') : t'.WellFormed := by
  have hempty : (Value.table .declared []).WellFormed := (wellFormed_empty .declared).toValue
  refine h.change (fun t t' h ht => ?_) ht
  split at ht
  · cases ht
    exact h.put (.list (by simpa using hempty)) key
  · next items hentry =>
    cases ht
    cases h.get? hentry with
    | list hitems =>
      refine h.put (.list ?_) key
      rw [List.forall_mem_append, List.forall_mem_singleton]
      exact ⟨hitems, hempty⟩
  · cases ht

end Table

theorem Numeral.isWord_of_integer {s rest : Text} {n : Int}
    (h : Numeral.integer s = some (n, rest)) : IsWord n := by
  unfold Numeral.integer at h
  dsimp only at h
  -- Whatever the base, the range is checked behind the digits.
  split at h <;>
  · obtain ⟨⟨m, s'⟩, -, h⟩ := Option.bind_eq_some_iff.1 h
    dsimp only at h
    split at h
    · next hword =>
      cases h
      exact hword
    · cases h

theorem Numeral.read_wellFormed {s rest : Text} {v : Value}
    (h : Numeral.read s = some (v, rest)) : v.WellFormed := by
  unfold Numeral.read at h
  split at h
  · cases h
    exact .float
  · obtain ⟨⟨n, s'⟩, hn, h⟩ := Option.map_eq_some_iff.1 h
    cases h
    exact .integer (Numeral.isWord_of_integer hn)

/-- A reader that only gives well-formed values. -/
def Sound (value : Reader Value) : Prop := ∀ s v rest, value s = some (v, rest) → v.WellFormed

section

variable {value : Reader Value}

theorem listItems_wellFormed (hvalue : Sound value) {bound : Nat} {s rest : Text}
    {vs : List Value} (h : listItems value bound s = some (vs, rest)) :
    ∀ v ∈ vs, v.WellFormed := by
  induction bound generalizing s rest vs with
  | zero => cases h
  | succ bound ih =>
    rw [listItems] at h
    obtain ⟨s₁, -, h⟩ := Option.bind_eq_some_iff.1 h
    split at h
    · cases h
      simp
    · obtain ⟨⟨v, s₂⟩, hv, h⟩ := Option.bind_eq_some_iff.1 h
      obtain ⟨s₃, -, h⟩ := Option.bind_eq_some_iff.1 h
      split at h
      · obtain ⟨⟨vs, s₄⟩, hvs, h⟩ := Option.bind_eq_some_iff.1 h
        cases h
        exact List.forall_mem_cons.2 ⟨hvalue _ _ _ hv, ih hvs⟩
      · cases h
        simpa using hvalue _ _ _ hv
      · cases h

theorem entry_wellFormed (hvalue : Sound value) {s rest : Text} {e : Key × Value}
    (h : entry value s = some (e, rest)) : e.2.WellFormed := by
  obtain ⟨⟨k, s₁⟩, -, h⟩ := Option.bind_eq_some_iff.1 h
  obtain ⟨s₂, -, h⟩ := Option.bind_eq_some_iff.1 h
  obtain ⟨⟨v, s₃⟩, hv, h⟩ := Option.bind_eq_some_iff.1 h
  cases h
  exact hvalue _ _ _ hv

theorem inlineEntries_wellFormed (hvalue : Sound value) {bound : Nat} {s rest : Text}
    {es : List (Key × Value)} (h : inlineEntries value bound s = some (es, rest)) :
    ∀ e ∈ es, e.2.WellFormed := by
  induction bound generalizing s rest es with
  | zero => cases h
  | succ bound ih =>
    rw [inlineEntries] at h
    obtain ⟨⟨e, s₁⟩, he, h⟩ := Option.bind_eq_some_iff.1 h
    have hentry := entry_wellFormed hvalue he
    dsimp only at h
    split at h
    · obtain ⟨⟨es, s₂⟩, hes, h⟩ := Option.bind_eq_some_iff.1 h
      cases h
      exact List.forall_mem_cons.2 ⟨hentry, ih hes⟩
    · cases h
      simpa using hentry
    · cases h

theorem foldlM_addEntry_wellFormed {es : List (Key × Value)} (hes : ∀ e ∈ es, e.2.WellFormed)
    {t t' : Table} (h : t.WellFormed)
    (ht : es.foldlM (fun t (k, v) => t.addEntry k.path k.last v) t = some t') : t'.WellFormed := by
  induction es generalizing t with
  | nil =>
    cases ht
    exact h
  | cons e es ih =>
    obtain ⟨he, hes⟩ := List.forall_mem_cons.1 hes
    obtain ⟨t₁, ht₁, ht⟩ := Option.bind_eq_some_iff.1 ht
    exact ih hes (h.addEntry he ht₁) ht

theorem inlineTable_sound (hvalue : Sound value) : Sound (inlineTable value) := by
  intro s v rest h
  have hclosed {es : List (Key × Value)} {t : Table} (hes : ∀ e ∈ es, e.2.WellFormed)
      (ht : es.foldlM (fun t (k, v) => t.addEntry k.path k.last v) ⟨.inline, []⟩ = some t) :
      t.toValue.WellFormed :=
    (foldlM_addEntry_wellFormed hes (Table.wellFormed_empty .inline) ht).toValue
  unfold inlineTable at h
  dsimp only at h
  split at h
  · obtain ⟨⟨es, s₁⟩, hes, h⟩ := Option.bind_eq_some_iff.1 h
    obtain ⟨t, ht, h⟩ := Option.bind_eq_some_iff.1 h
    cases hes
    cases h
    exact hclosed (by simp) ht
  · obtain ⟨⟨es, s₁⟩, hes, h⟩ := Option.bind_eq_some_iff.1 h
    obtain ⟨t, ht, h⟩ := Option.bind_eq_some_iff.1 h
    cases h
    exact hclosed (inlineEntries_wellFormed hvalue hes) ht

end

theorem value_sound (levels : Nat) : Sound (value levels) := by
  induction levels using Nat.strongRecOn with
  | ind levels ih =>
    intro s v rest h
    rw [value.eq_def] at h
    dsimp only at h
    split at h
    · cases h
    split at h
    · obtain ⟨⟨t, s₁⟩, -, h⟩ := Option.map_eq_some_iff.1 h
      cases h
      exact .text t
    split at h
    · split at h
      · cases h
      · next levels =>
        obtain ⟨⟨vs, s₁⟩, hvs, h⟩ := Option.map_eq_some_iff.1 h
        cases h
        exact .list (listItems_wellFormed (ih levels (Nat.lt_succ_self levels)) hvs)
    split at h
    · split at h
      · cases h
      · next levels => exact inlineTable_sound (ih levels (Nat.lt_succ_self levels)) _ _ _ h
    split at h
    · obtain ⟨s₁, -, h⟩ := Option.map_eq_some_iff.1 h
      cases h
      exact .boolean
    split at h
    · obtain ⟨s₁, -, h⟩ := Option.map_eq_some_iff.1 h
      cases h
      exact .boolean
    split at h
    · cases h
      exact .moment
    · exact Numeral.read_wellFormed h

/-- An entry whose value is well-formed, or a header. -/
def Statement.WellFormed : Statement → Prop
  | .entry _ v => v.WellFormed
  | _ => True

theorem statement_wellFormed {s rest : Text} {st : Statement}
    (h : statement s = some (st, rest)) : st.WellFormed := by
  unfold statement at h
  split at h
  · unfold header at h
    split at h
    · obtain ⟨⟨k, s₁⟩, -, h⟩ := Option.bind_eq_some_iff.1 h
      obtain ⟨s₂, -, h⟩ := Option.bind_eq_some_iff.1 h
      cases h
      trivial
    · obtain ⟨⟨k, s₁⟩, -, h⟩ := Option.bind_eq_some_iff.1 h
      obtain ⟨s₂, -, h⟩ := Option.bind_eq_some_iff.1 h
      cases h
      trivial
    · cases h
  · obtain ⟨⟨⟨k, v⟩, s₁⟩, he, h⟩ := Option.map_eq_some_iff.1 h
    cases h
    exact entry_wellFormed (value_sound _) he

theorem statements_wellFormed {bound : Nat} {s : Text} {sts : List Statement}
    (h : statements bound s = some sts) : ∀ st ∈ sts, st.WellFormed := by
  induction bound generalizing s sts with
  | zero => cases h
  | succ bound ih =>
    rw [statements] at h
    split at h
    · cases h
      simp
    split at h
    · obtain ⟨s₁, -, h⟩ := Option.bind_eq_some_iff.1 h
      exact ih h
    · obtain ⟨⟨st, s₁⟩, hst, h⟩ := Option.bind_eq_some_iff.1 h
      obtain ⟨s₂, -, h⟩ := Option.bind_eq_some_iff.1 h
      obtain ⟨sts, hsts, h⟩ := Option.bind_eq_some_iff.1 h
      cases h
      exact List.forall_mem_cons.2 ⟨statement_wellFormed hst, ih hsts⟩

namespace Document

theorem add_wellFormed {d d' : Document} (hd : d.root.WellFormed) {st : Statement}
    (hst : st.WellFormed) (h : d.add st = some d') : d'.root.WellFormed := by
  cases st with
  | entry k v =>
    obtain ⟨root, hroot, h⟩ := Option.bind_eq_some_iff.1 h
    cases h
    exact hd.change (fun t t' ht ht' => ht.addEntry hst ht') hroot
  | header k =>
    obtain ⟨root, hroot, h⟩ := Option.bind_eq_some_iff.1 h
    cases h
    exact hd.openTable hroot
  | listHeader k =>
    obtain ⟨root, hroot, h⟩ := Option.bind_eq_some_iff.1 h
    cases h
    exact hd.extendList hroot

theorem foldlM_add_wellFormed {sts : List Statement} (hsts : ∀ st ∈ sts, st.WellFormed)
    {d d' : Document} (hd : d.root.WellFormed) (h : sts.foldlM add d = some d') :
    d'.root.WellFormed := by
  induction sts generalizing d with
  | nil =>
    cases h
    exact hd
  | cons st sts ih =>
    obtain ⟨hst, hsts⟩ := List.forall_mem_cons.1 hsts
    obtain ⟨d₁, hd₁, h⟩ := Option.bind_eq_some_iff.1 h
    exact ih hsts (add_wellFormed hd hst hd₁) h

end Document

/-- Every document that is read has each key once, and well-formed values. -/
theorem read_wellFormed {source : Text} {doc : Entries} (h : read source = some doc) :
    (doc.map Prod.fst).Nodup ∧ ∀ e ∈ doc, e.2.WellFormed := by
  obtain ⟨sts, hsts, h⟩ := Option.bind_eq_some_iff.1 h
  obtain ⟨d, hd, h⟩ := Option.bind_eq_some_iff.1 h
  cases h
  exact Document.foldlM_add_wellFormed (statements_wellFormed hsts)
    (Table.wellFormed_empty .declared) hd

end HandlebarsToTwig.Toml
