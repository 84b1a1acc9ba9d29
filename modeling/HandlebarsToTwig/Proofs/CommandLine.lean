import HandlebarsToTwig.Proofs.CommandOutcome
import HandlebarsToTwig.Proofs.Image
import HandlebarsToTwig.Proofs.TreeJson

/-! Commands that read standard input and print. A template and the tree that is printed for it are
transpiled to the same text, as long as the tree can be read back. -/
namespace HandlebarsToTwig

namespace Command
open Folder

section

variable (files : List (Text × ByteArray)) (source : Text) (wording : Wording)

theorem readInput_fed :
    (readInput surroundings ['-']).run.run (fed files source) = (.ok source, fed files source) := by
  rw [readInput_run surroundings_whole, inputAt_fed]
  rfl

theorem run_parse_fed {tree : List Node} (h : Node.ofSource source defaultMaxDepth = .ok tree) :
    (run surroundings ["parse".toList, ['-']] wording).run (fed files source) =
      (⟨0, Node.listToPrettyJson tree ++ ['\n'], []⟩, fed files source) := by
  refine run_of_request (r := .parse ['-']) (o := .ok _) rfl ?_ wording
  rw [Request.run, run_bind_of_ok (readInput_fed files source), h]
  rfl

/-- The plain transpilation of standard input, as a template or as a tree. -/
def plainJob (jsonTree : Bool) : Transpilation := ⟨['-'], jsonTree, none, none, none⟩

theorem run_transpile_fed (jsonTree : Bool) {arguments : List Text}
    (ha : Request.ofArguments {} arguments = .ok (.transpile (plainJob jsonTree))) :
    (run surroundings arguments wording).run (fed files source) =
      (.ofResult wording ((produce (plainJob jsonTree) {} source).map (· ++ ['\n'])),
        fed files source) := by
  refine run_of_request ha ?_ wording
  have hc : (readConfig surroundings none).run.run (fed files source) =
      (.ok {}, fed files source) := rfl
  rw [Request.run, plainJob, run_bind_of_ok hc, run_bind_of_ok (readInput_fed files source)]
  cases produce ⟨['-'], jsonTree, none, none, none⟩ {} source <;> rfl

end

section

variable {source : Text} {tree : List Node}

/-- What is printed for a tree. -/
def printedTree (tree : List Node) : Text := Node.listToPrettyJson tree ++ ['\n']

theorem listOfJson_printedTree (tree : List Node) :
    Node.listOfJson (printedTree tree) =
      if Node.listLevels tree ≤ NodeRecord.maxLevels then .ok tree
      else .error (.json .malformed) :=
  Layout.pretty.listOfJson_write tree (by simp [Json.IsGap, Json.isGap])

/-- What is produced does not depend on where the tree comes from. -/
theorem produce_of_readTree {job : Transpilation} {options : Options} {body : Text}
    (ht : readTree job options source = .ok tree) (hb : render options tree = .ok body) :
    produce job options source = .ok (job.content body) := by
  simp only [produce, ht, bind, Except.bind, hb]
  rfl

/-- A template that is parsed under a limit is emitted under it. -/
theorem produce_source (job : Transpilation) (options : Options)
    (h : Node.ofSource source options.maxDepth = .ok tree) :
    produce { job with jsonTree := false } options source =
      .ok (job.content (joined (Node.listFragments options.dialect none tree))) := by
  have ht : readTree { job with jsonTree := false } options source = .ok tree := by
    rw [readTree, if_neg (by simp), h]
    rfl
  exact produce_of_readTree ht (render_of_ofSource h)

theorem produce_printedTree (h : Node.ofSource source defaultMaxDepth = .ok tree)
    (hl : Node.listLevels tree ≤ NodeRecord.maxLevels) (job : Transpilation) (options : Options)
    (hn : Node.listNesting tree ≤ options.maxDepth) :
    produce { job with jsonTree := true } options (printedTree tree) =
      produce { job with jsonTree := false } options source := by
  have hsource : Node.ofSource source options.maxDepth = .ok tree :=
    Node.ofSource_of_listNesting_le h hn
  have hjson : Node.listOfJson (printedTree tree) = .ok tree := by
    rw [listOfJson_printedTree, if_pos hl]
  have ht : readTree { job with jsonTree := true } options (printedTree tree) = .ok tree := by
    rw [readTree, if_pos rfl, hjson]
    rfl
  rw [produce_source job options hsource, produce_of_readTree ht (render_of_ofSource hsource)]
  rfl

theorem produce_printedTree_refused (hl : ¬ Node.listLevels tree ≤ NodeRecord.maxLevels)
    (job : Transpilation) (options : Options) :
    produce { job with jsonTree := true } options (printedTree tree) =
      .error (.tree (printedTree tree) (.json .malformed)) := by
  have hjson : Node.listOfJson (printedTree tree) = .error (.json .malformed) := by
    rw [listOfJson_printedTree, if_neg hl]
  simp only [produce, readTree, hjson]
  rfl

end

/-- A template that can be parsed has its tree printed, and the printed tree is read back exactly
if its lists and objects do not nest too deep for the reader. Then, and only then, the tree and the
template are transpiled with the same outcome, and so they are with any header and any options
under which the template can be parsed. Each block takes two levels, so the limit on blocks does
not keep a tree within the limit of the reader. -/
theorem transpile_printedTree_iff {source : Text} {tree : List Node}
    (h : Node.ofSource source defaultMaxDepth = .ok tree) (files : List (Text × ByteArray))
    (wording : Wording) :
    (run surroundings ["parse".toList, ['-']] wording).run (fed files source) =
      (⟨0, printedTree tree, []⟩, fed files source) ∧
    Node.listOfJson (printedTree tree) =
      (if Node.listLevels tree ≤ NodeRecord.maxLevels then .ok tree
        else .error (.json .malformed)) ∧
    (((run surroundings ["transpile".toList, "--json-tree".toList, ['-']] wording).run
        (fed files (printedTree tree))).1 =
      ((run surroundings ["transpile".toList, ['-']] wording).run (fed files source)).1 ↔
        Node.listLevels tree ≤ NodeRecord.maxLevels) ∧
    (Node.listLevels tree ≤ NodeRecord.maxLevels →
      ∀ (job : Transpilation) (options : Options), Node.listNesting tree ≤ options.maxDepth →
        produce { job with jsonTree := true } options (printedTree tree) =
          produce { job with jsonTree := false } options source) ∧
    2 * Node.listNesting tree < Node.listLevels tree ∧
    Node.listLevels tree ≤ 2 * Node.listNesting tree + 2 := by
  refine ⟨run_parse_fed files source wording h, listOfJson_printedTree tree, ?_,
    fun hl job options hn => produce_printedTree h hl job options hn, Node.listLevels_bounds tree⟩
  rw [run_transpile_fed files (printedTree tree) wording true rfl,
    run_transpile_fed files source wording false rfl]
  by_cases hl : Node.listLevels tree ≤ NodeRecord.maxLevels
  · obtain ⟨_, _, _, hn⟩ := Node.ofSource_eq_ok_iff.1 h
    have hp := produce_printedTree h hl (plainJob true) {} hn
    exact iff_of_true (congrArg (fun o => Outcome.ofResult wording (o.map (· ++ ['\n']))) hp) hl
  · have hp := produce_printedTree_refused hl (plainJob true) {}
    have hs := produce_source (plainJob false) {} h
    refine iff_of_false (fun he => ?_) hl
    have hcode := congrArg Outcome.exitCode he
    rw [show produce (plainJob true) {} (printedTree tree) = _ from hp,
      show produce (plainJob false) {} source = _ from hs] at hcode
    simp [Except.map, Outcome.ofResult] at hcode

/-- Conditions that nest `n` deep around a text. -/
def nested : (n : Nat) → List Node
  | 0 => [.text ['x']]
  | n + 1 => [.block .when (some ['a']) (nested n)]

theorem listNesting_nested (n : Nat) : Node.listNesting (nested n) = n := by
  induction n with
  | zero => rfl
  | succ n ih => simp [nested, Node.listNesting, Node.nesting, ih]

theorem listLevels_nested (n : Nat) : Node.listLevels (nested n) = 2 * n + 2 := by
  induction n with
  | zero => rfl
  | succ n ih =>
    simp only [nested, Node.listLevels, Node.levels, ih]
    omega

theorem listExpressible_nested (n : Nat) : Node.ListExpressible (nested n) := by
  induction n with
  | zero =>
    refine ⟨⟨by decide, by decide⟩, ?_, trivial⟩
    simp
  | succ n ih =>
    refine ⟨⟨?_, ih⟩, by simp [Node.isText], trivial⟩
    rintro s ⟨rfl⟩
    exact ⟨by decide, by decide, by decide⟩

/-- The template of these conditions. -/
def nestedSource (n : Nat) : Text := Token.written false (Node.listTokens (nested n))

theorem ofSource_nestedSource {n : Nat} (h : n ≤ defaultMaxDepth) :
    Node.ofSource (nestedSource n) defaultMaxDepth = .ok (nested n) :=
  Node.ofSource_eq_ok_of_expressible (listExpressible_nested n) (by rwa [listNesting_nested])

/-- The deepest conditions around a text that are read back. -/
theorem transpile_printedTree_nested :
    Node.ofSource (nestedSource 62) defaultMaxDepth = .ok (nested 62) ∧
    Node.listOfJson (printedTree (nested 62)) = .ok (nested 62) ∧
    ((run surroundings ["transpile".toList, "--json-tree".toList, ['-']] {}).run
        (fed [] (printedTree (nested 62)))).1 =
      ((run surroundings ["transpile".toList, ['-']] {}).run (fed [] (nestedSource 62))).1 := by
  have h : Node.ofSource (nestedSource 62) defaultMaxDepth = .ok (nested 62) :=
    ofSource_nestedSource (by decide)
  have hl : Node.listLevels (nested 62) ≤ NodeRecord.maxLevels := by
    rw [listLevels_nested]
    decide
  obtain ⟨-, hread, hsame, -⟩ := transpile_printedTree_iff h [] {}
  exact ⟨h, hread.trans (if_pos hl), hsame.2 hl⟩

/-- One condition more, and the template is parsed but its printed tree is refused. -/
theorem printedTree_nested_refused :
    Node.ofSource (nestedSource 63) defaultMaxDepth = .ok (nested 63) ∧
    Node.listOfJson (printedTree (nested 63)) = .error (.json .malformed) := by
  have hl : ¬ Node.listLevels (nested 63) ≤ NodeRecord.maxLevels := by
    rw [listLevels_nested]
    decide
  exact ⟨ofSource_nestedSource (by decide), (listOfJson_printedTree _).trans (if_neg hl)⟩

end Command

end HandlebarsToTwig
