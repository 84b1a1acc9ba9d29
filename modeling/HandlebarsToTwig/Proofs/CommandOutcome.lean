import HandlebarsToTwig.Command.Folder
import HandlebarsToTwig.Command.Run
import HandlebarsToTwig.Proofs.DepthLimit

/-! What a command leaves behind. A transpilation does what the library does with the same text and
options, and either all of its result is emitted or nothing is: the first step that fails is the only
thing that shows. -/
namespace HandlebarsToTwig

theorem Text.decode?_encode (s : Text) : Text.decode? (Text.encode s) = some s := by
  have hv : (String.ofList s).toUTF8.IsValidUTF8 := (String.ofList s).isValidUTF8
  have hs : String.fromUTF8? (String.ofList s).toUTF8 = some (String.ofList s) := by
    rw [String.fromUTF8?, dif_pos hv]
    rfl
  rw [decode?, encode, hs, Option.map_some, String.toList_ofList]

namespace Command

/-- What a command that prints its result leaves behind. -/
def Outcome.ofResult (wording : Wording) : Except Failure Text → Outcome
  | .ok printed => ⟨0, printed, []⟩
  | .error failure => ⟨1, [], "error: ".toList ++ failure.message wording ++ ['\n']⟩

variable {σ : Type}

section

variable {α β : Type} {x : ExceptT Failure (StateM σ) α} {f : α → ExceptT Failure (StateM σ) β}
  {before after : σ}

/-- A step that succeeds hands on its result and the surroundings. -/
theorem run_bind_of_ok {a : α} (hx : x.run.run before = (.ok a, after)) :
    (x >>= f).run.run before = (f a).run.run after := by
  rw [ExceptT.run_bind, StateT.run_bind, hx]
  rfl

/-- A step that fails is the last one. -/
theorem run_bind_of_error {failure : Failure} (hx : x.run.run before = (.error failure, after)) :
    (x >>= f).run.run before = (.error failure, after) := by
  rw [ExceptT.run_bind, StateT.run_bind, hx]
  rfl

end

/-- A command line does what its request does. -/
theorem run_of_request {files : Files (StateM σ)} {arguments : List Text} {r : Request}
    {o : Except Failure Text} {before after : σ}
    (ha : Request.ofArguments {} arguments = .ok r)
    (hr : (r.run files).run.run before = (o, after)) (wording : Wording) :
    (run files arguments wording).run before = (.ofResult wording o, after) := by
  have hx : (r.run files) before = (o, after) := hr
  rw [run, ha]
  simp only [StateT.run_bind]
  rw [StateT.run, hx]
  cases o <;> rfl

/-- Surroundings in which reading changes nothing, and writing a file changes nothing either if it
fails. -/
structure Files.Whole (files : Files (StateM σ)) : Prop where
  standardInput : ∀ s, (files.standardInput.run s).2 = s
  read : ∀ path s, ((files.read path).run s).2 = s
  write : ∀ path content s fault, ((files.write path content).run s).1 = .error fault →
    ((files.write path content).run s).2 = s

theorem Folder.surroundings_write_run (f : Folder) (path content : Text) :
    (surroundings.write path content).run f =
      match f.write path content with
      | .ok f' => (.ok (), f')
      | .error fault => (.error fault, f) := by
  simp only [surroundings, StateT.run_bind, StateT.run_get, pure_bind]
  cases f.write path content <;> rfl

theorem Folder.surroundings_whole : surroundings.Whole where
  standardInput := fun _ => rfl
  read := fun _ _ => rfl
  write := by
    intro path content f fault h
    rw [surroundings_write_run] at h ⊢
    cases hf : f.write path content with
    | ok f' => simp [hf] at h
    | error fault => rfl

namespace Files

/-- The text in a file. -/
def fileAt (files : Files (StateM σ)) (s : σ) (path : Text) : Except FileFault Text :=
  decoded ((files.read path).run s).1

/-- The text of an input, which is a file or standard input. -/
def inputAt (files : Files (StateM σ)) (s : σ) (path : Text) : Except FileFault Text :=
  if isStandardInput path then decoded (.ok (files.standardInput.run s).1) else files.fileAt s path

end Files

/-- A folder whose standard input holds `source`. -/
def Folder.fed (files : List (Text × ByteArray)) (source : Text) : Folder :=
  ⟨Text.encode source, files⟩

theorem decoded_encode (s : Text) : decoded (.ok (Text.encode s)) = .ok s := by
  simp [decoded, Text.decode?_encode, bind, Except.bind, pure, Except.pure]

theorem Folder.inputAt_fed (files : List (Text × ByteArray)) (source : Text) :
    surroundings.inputAt (fed files source) ['-'] = .ok source := by
  rw [Files.inputAt, if_pos (by decide)]
  exact decoded_encode source

theorem run_liftM {α : Type} (x : StateM σ α) (s : σ) :
    (liftM x : ExceptT Failure (StateM σ) α).run.run s = (.ok (x.run s).1, (x.run s).2) := rfl

theorem run_liftExcept {α : Type} (x : Except Failure α) (s : σ) :
    (liftM x : ExceptT Failure (StateM σ) α).run.run s = (x, s) := by
  cases x <;> rfl

theorem readInput_run {files : Files (StateM σ)} (hw : files.Whole) (s : σ) (path : Text) :
    (readInput files path).run.run s =
      ((files.inputAt s path).mapError fun fault =>
        if isStandardInput path then .standardInput fault else .inputFile path fault, s) := by
  unfold readInput Files.inputAt
  split
  · have hread := run_liftM files.standardInput s
    rw [hw.standardInput] at hread
    rw [run_bind_of_ok hread]
    cases decoded (.ok (files.standardInput.run s).1) <;> rfl
  · have hread := run_liftM (files.read path) s
    rw [hw.read] at hread
    rw [run_bind_of_ok hread, Files.fileAt]
    cases decoded ((files.read path).run s).1 <;> rfl

theorem readConfig_run {files : Files (StateM σ)} (hw : files.Whole) (s : σ) (path : Text) :
    (readConfig files (some path)).run.run s =
      (((files.fileAt s path).mapError (.configFile path)).bind fun text =>
        (Options.ofToml text).mapError (.config path text), s) := by
  have hread := run_liftM (files.read path) s
  rw [hw.read] at hread
  rw [readConfig, run_bind_of_ok hread, Files.fileAt]
  cases decoded ((files.read path).run s).1 with
  | error fault => rfl
  | ok text =>
    change _ = ((Options.ofToml text).mapError (Failure.config path text), s)
    dsimp only
    cases Options.ofToml text <;> rfl

namespace Transpilation

variable (job : Transpilation)

/-- What is emitted for a body. -/
def content (body : Text) : Text :=
  match job.header with
  | some header => header.document body
  | none => body

section

variable (files : Files (StateM σ)) (wording : Wording) (s : σ)

/-- The options are those in the configuration file of the job, or without one the defaults. -/
def Loads (o : Options) : Prop :=
  match job.config with
  | none => o = {}
  | some path => ∃ text, files.fileAt s path = .ok text ∧ Options.ofToml text = .ok o

/-- The library gives `body` for the input and the options of the job. -/
def Makes (body : Text) : Prop :=
  ∃ o source, job.Loads files s o ∧ files.inputAt s job.input = .ok source ∧
    transpile o source = .ok body

/-- The result is printed with a newline behind it, or written to the output file as it is. -/
def Emits (body printed : Text) (after : σ) : Prop :=
  match job.output with
  | none => printed = job.content body ++ ['\n'] ∧ after = s
  | some path => printed = [] ∧ (files.write path (job.content body)).run s = (.ok (), after)

/-- The first step that fails, and its error. What is wrong with a configuration file is said in the
words of its reader. -/
inductive Refused : (cause : Text) → Prop
  | configFile {path : Text} {fault : FileFault} : job.config = some path →
    files.fileAt s path = .error fault →
    Refused ("loading config ".toList ++ path ++ ": ".toList ++ fault.message)
  | config {path text : Text} {fault : ConfigFault} : job.config = some path →
    files.fileAt s path = .ok text → Options.ofToml text = .error (.config fault) →
    Refused ("loading config ".toList ++ path ++ ": ".toList ++
      (Error.config fault).message (wording.config text))
  | standardInput {o : Options} {fault : FileFault} : job.Loads files s o →
    isStandardInput job.input = true → files.inputAt s job.input = .error fault →
    Refused ("reading stdin: ".toList ++ fault.message)
  | inputFile {o : Options} {fault : FileFault} : job.Loads files s o →
    isStandardInput job.input = false → files.inputAt s job.input = .error fault →
    Refused ("reading ".toList ++ job.input ++ ": ".toList ++ fault.message)
  /-- A fault in a tag is reported with its place in the input. -/
  | tag {o : Options} {source : Text} {fault : TagFault} {offset line column : Nat} :
    job.Loads files s o → files.inputAt s job.input = .ok source →
    transpile o source = .error (.tag fault offset) → position source offset = (line, column) →
    Refused (job.input ++ ':' :: Error.decimal line ++ ':' :: Error.decimal column ++
      ": ".toList ++ (Error.tag fault offset).message)
  | template {o : Options} {source : Text} {e : Error} :
    job.Loads files s o → files.inputAt s job.input = .ok source →
    transpile o source = .error e → (∀ fault offset, e ≠ .tag fault offset) → Refused e.message
  | outputFile {body path : Text} {fault : FileFault} : job.Makes files s body →
    job.output = some path →
    ((files.write path (job.content body)).run s).1 = .error fault →
    Refused ("writing ".toList ++ path ++ ": ".toList ++ fault.message)

end

variable {job} {files : Files (StateM σ)} {wording : Wording} {s : σ}

/-- Without a tree as its input, a job does what the library does. -/
theorem produce_eq (hj : job.jsonTree = false) (o : Options) (source : Text) :
    produce job o source =
      ((transpile o source).map job.content).mapError (.template job.input source) := by
  rw [transpile_eq_map]
  unfold produce readTree
  rw [hj, if_neg (by simp)]
  cases ht : Node.ofSource source o.maxDepth with
  | error e => rfl
  | ok tree =>
    change (render o tree).mapError _ >>= _ = _
    rw [render_of_ofSource ht]
    rfl

theorem Loads.run {o : Options} (hw : files.Whole) (h : job.Loads files s o) :
    (readConfig files job.config).run.run s = (.ok o, s) := by
  unfold Loads at h
  split at h
  · next hc =>
    rw [hc, h]
    rfl
  · next path hc =>
    obtain ⟨text, hfile, htoml⟩ := h
    rw [hc, readConfig_run hw, hfile]
    change ((Options.ofToml text).mapError (Failure.config path text), s) = _
    rw [htoml]
    rfl

/-- The last step, from the content that has been produced. -/
def delivered (files : Files (StateM σ)) (s : σ) (content : Text) :
    (output : Option Text) → Except Failure Text × σ
  | none => (.ok (content ++ ['\n']), s)
  | some path =>
    match (files.write path content).run s with
    | (.ok (), after) => (.ok [], after)
    | (.error fault, after) => (.error (.outputFile path fault), after)

theorem Loads.run_of_inputAt_error {o : Options} {fault : FileFault} (hw : files.Whole)
    (h : job.Loads files s o) (hinput : files.inputAt s job.input = .error fault) :
    ((Request.transpile job).run files).run.run s =
      (.error (if isStandardInput job.input then .standardInput fault
        else .inputFile job.input fault), s) := by
  rw [Request.run, run_bind_of_ok (h.run hw)]
  apply run_bind_of_error
  rw [readInput_run hw, hinput]
  rfl

/-- With the options and the input at hand, the library decides. -/
theorem Loads.run_transpile {o : Options} {source : Text} (hw : files.Whole)
    (hj : job.jsonTree = false) (h : job.Loads files s o)
    (hinput : files.inputAt s job.input = .ok source) :
    ((Request.transpile job).run files).run.run s =
      match transpile o source with
      | .error e => (.error (.template job.input source e), s)
      | .ok body => delivered files s (job.content body) job.output := by
  have hread := readInput_run hw s job.input
  rw [hinput] at hread
  have hproduce := run_liftExcept (produce job o source) s
  rw [Request.run, run_bind_of_ok (h.run hw), run_bind_of_ok hread]
  cases hout : transpile o source with
  | error e =>
    rw [run_bind_of_error (hproduce.trans (by rw [produce_eq hj, hout]; rfl))]
  | ok body =>
    rw [run_bind_of_ok (hproduce.trans (by rw [produce_eq hj, hout]; rfl))]
    cases job.output with
    | none => rfl
    | some path =>
      dsimp only [delivered]
      rw [run_bind_of_ok (run_liftM _ s)]
      obtain ⟨result, after⟩ := (files.write path (job.content body)).run s
      cases result <;> rfl

theorem Makes.run {body : Text} (hw : files.Whole) (hj : job.jsonTree = false)
    (h : job.Makes files s body) :
    ((Request.transpile job).run files).run.run s =
      delivered files s (job.content body) job.output := by
  obtain ⟨o, source, hload, hinput, hout⟩ := h
  rw [hload.run_transpile hw hj hinput, hout]

/-- A step that fails stands for the whole job, and leaves everything as it was. -/
theorem Refused.run {cause : Text} (hw : files.Whole) (hj : job.jsonTree = false)
    (h : job.Refused files wording s cause) :
    ∃ failure, ((Request.transpile job).run files).run.run s = (.error failure, s) ∧
      failure.message wording = cause := by
  cases h with
  | @configFile path fault hc hfile =>
    refine ⟨.configFile path fault, run_bind_of_error ?_, by simp [Failure.message, Failure.chain]⟩
    rw [hc, readConfig_run hw, hfile]
    rfl
  | @config path text fault hc hfile htoml =>
    refine ⟨.config path text (.config fault), run_bind_of_error ?_, ?_⟩
    · rw [hc, readConfig_run hw, hfile]
      change ((Options.ofToml text).mapError (Failure.config path text), s) = _
      rw [htoml]
      rfl
    · simp [Failure.message, Failure.chain, Error.chain]
  | @standardInput o fault hload hstd hinput =>
    exact ⟨_, hload.run_of_inputAt_error hw hinput, by simp [hstd, Failure.message, Failure.chain]⟩
  | @inputFile o fault hload hstd hinput =>
    exact ⟨_, hload.run_of_inputAt_error hw hinput, by simp [hstd, Failure.message, Failure.chain]⟩
  | @tag o source fault offset line column hload hinput hout hposition =>
    refine ⟨.template job.input source (.tag fault offset), ?_, ?_⟩
    · rw [hload.run_transpile hw hj hinput, hout]
    · simp [Failure.message, Failure.chain, hposition]
  | @template o source e hload hinput hout hne =>
    refine ⟨.template job.input source e, ?_, ?_⟩
    · rw [hload.run_transpile hw hj hinput, hout]
    · cases e with
      | tag fault offset => exact absurd rfl (hne fault offset)
      | _ => simp [Failure.message, Failure.chain]
  | @outputFile body path fault hm ho hwrite =>
    refine ⟨.outputFile path fault, ?_, by simp [Failure.message, Failure.chain]⟩
    have hkept := hw.write path (job.content body) s fault hwrite
    rw [hm.run hw hj, ho, delivered,
      show (files.write path (job.content body)).run s = (.error fault, s) from Prod.ext hwrite hkept]

theorem loads_or_refused (job : Transpilation) (files : Files (StateM σ)) (wording : Wording)
    (s : σ) : (∃ o, job.Loads files s o) ∨ ∃ cause, job.Refused files wording s cause := by
  cases hc : job.config with
  | none => exact .inl ⟨{}, by simp [Loads, hc]⟩
  | some path =>
    cases hfile : files.fileAt s path with
    | error fault => exact .inr ⟨_, .configFile hc hfile⟩
    | ok text =>
      cases htoml : Options.ofToml text with
      | error e =>
        obtain ⟨fault, rfl⟩ := Options.ofToml_eq_error htoml
        exact .inr ⟨_, .config hc hfile htoml⟩
      | ok o => exact .inl ⟨o, by simp [Loads, hc, hfile, htoml]⟩

theorem makes_or_refused (job : Transpilation) (files : Files (StateM σ)) (wording : Wording)
    (s : σ) : (∃ body, job.Makes files s body) ∨ ∃ cause, job.Refused files wording s cause := by
  rcases job.loads_or_refused files wording s with ⟨o, hload⟩ | hrefused
  · cases hinput : files.inputAt s job.input with
    | error fault =>
      cases hstd : isStandardInput job.input with
      | true => exact .inr ⟨_, .standardInput hload hstd hinput⟩
      | false => exact .inr ⟨_, .inputFile hload hstd hinput⟩
    | ok source =>
      cases hout : transpile o source with
      | ok body => exact .inl ⟨body, o, source, hload, hinput, hout⟩
      | error e =>
        cases e with
        | tag fault offset => exact .inr ⟨_, .tag hload hinput hout rfl⟩
        | _ => exact .inr ⟨_, .template hload hinput hout (by simp)⟩
  · exact .inr hrefused

/-- Every job gives a result that is emitted, or has a step that fails first. -/
theorem emits_or_refused (job : Transpilation) (files : Files (StateM σ)) (wording : Wording)
    (s : σ) :
    (∃ body printed after, job.Makes files s body ∧ job.Emits files s body printed after) ∨
      ∃ cause, job.Refused files wording s cause := by
  rcases job.makes_or_refused files wording s with ⟨body, hm⟩ | hrefused
  · cases ho : job.output with
    | none => exact .inl ⟨body, job.content body ++ ['\n'], s, hm, by simp [Emits, ho]⟩
    | some path =>
      cases hwrite : ((files.write path (job.content body)).run s).1 with
      | ok done =>
        refine .inl ⟨body, [], ((files.write path (job.content body)).run s).2, hm, ?_⟩
        rw [Emits, ho]
        exact ⟨rfl, Prod.ext hwrite rfl⟩
      | error fault => exact .inr ⟨_, .outputFile hm ho hwrite⟩
  · exact .inr hrefused

theorem Emits.delivered_eq {body printed : Text} {after : σ}
    (h : job.Emits files s body printed after) :
    delivered files s (job.content body) job.output = (.ok printed, after) := by
  unfold Emits at h
  split at h
  · next ho =>
    rw [ho, delivered, h.1, h.2]
  · next path ho =>
    rw [ho, delivered, h.1, h.2]

end Transpilation

section

variable {α β : Type}

/-- The step changes nothing around it. -/
def Steady (x : ExceptT Failure (StateM σ) α) : Prop := ∀ s, (x.run.run s).2 = s

/-- The step changes nothing around it if it fails. -/
def Careful (x : ExceptT Failure (StateM σ) α) : Prop :=
  ∀ ⦃s failure after⦄, x.run.run s = (.error failure, after) → after = s

theorem Careful.bind {x : ExceptT Failure (StateM σ) α} {f : α → ExceptT Failure (StateM σ) β}
    (hx : Steady x) (hf : ∀ a, Careful (f a)) : Careful (x >>= f) := by
  intro s failure after h
  have hs := hx s
  cases hr : x.run.run s with
  | mk result s' =>
    rw [hr] at hs
    subst hs
    cases result with
    | ok a => exact hf a ((run_bind_of_ok hr).symm.trans h)
    | error e =>
      rw [run_bind_of_error hr] at h
      cases h
      rfl

theorem Steady.careful {x : ExceptT Failure (StateM σ) α} (h : Steady x) : Careful x := by
  intro s failure after hr
  have hs := h s
  rw [hr] at hs
  exact hs

end

theorem Request.run_careful {files : Files (StateM σ)} (hw : files.Whole) (r : Request) :
    Careful (r.run files) := by
  have hconfig (config : Option Text) : Steady (readConfig files config) := by
    intro s
    cases config with
    | none => rfl
    | some path => rw [readConfig_run hw]
  have hinput (path : Text) : Steady (readInput files path) := by
    intro s
    rw [readInput_run hw]
  cases r with
  | transpile job =>
    refine Careful.bind (hconfig _) fun o => Careful.bind (hinput _) fun source => ?_
    refine Careful.bind (fun s => by rw [run_liftExcept]) fun content => ?_
    cases job.output with
    | none => exact Steady.careful fun _ => rfl
    | some path =>
      intro s failure after h
      rw [run_bind_of_ok (run_liftM _ s)] at h
      cases hwrite : ((files.write path content).run s).1 with
      | ok done =>
        rw [hwrite] at h
        cases h
      | error fault =>
        rw [hwrite, hw.write path content s fault hwrite] at h
        cases h
        rfl
  | parse input =>
    refine Careful.bind (hinput _) fun source => ?_
    cases Node.ofSource source defaultMaxDepth <;> exact Steady.careful fun _ => rfl
  | lex input =>
    refine Careful.bind (hinput _) fun source => ?_
    cases Lexeme.ofSource source <;> exact Steady.careful fun _ => rfl

/-- A command that fails, whatever it was asked for, prints no result and leaves everything as it
was. -/
theorem run_of_exitCode_ne_zero {files : Files (StateM σ)} (hw : files.Whole) {wording : Wording}
    {arguments : List Text} {before : σ}
    (h : ((run files arguments wording).run before).1.exitCode ≠ 0) :
    ((run files arguments wording).run before).1.printed = [] ∧
      ((run files arguments wording).run before).2 = before := by
  cases ha : Request.ofArguments {} arguments with
  | error stop =>
    simp only [run, ha] at h ⊢
    cases stop with
    | refused => exact ⟨rfl, rfl⟩
    | help => exact absurd rfl h
    | version => exact absurd rfl h
  | ok r =>
    cases hr : (r.run files).run.run before with
    | mk o after =>
      rw [run_of_request ha hr] at h ⊢
      cases o with
      | ok printed => exact absurd rfl h
      | error failure => exact ⟨rfl, r.run_careful hw hr⟩

/-- A transpilation of template text does what the library does. It succeeds only if the library
gives a body for the input under the options that are loaded, and then emits that body or the
document around it, and nothing else; the first of its steps that fails, be it loading the options,
reading the input, transpiling or writing the result, is reported, and then nothing is printed and
nothing is written. So it is whatever the reader of configuration files says about a file that it
refuses. No command that fails prints a result. -/
theorem run_all_or_nothing {files : Files (StateM σ)} (hw : files.Whole) (wording : Wording)
    (before : σ) :
    (∀ arguments job, Request.ofArguments {} arguments = .ok (.transpile job) →
      job.jsonTree = false →
      let result := (run files arguments wording).run before
      (result.1.exitCode = 0 → ∃ body, job.Makes files before body ∧
        job.Emits files before body result.1.printed result.2) ∧
      (∀ body printed after, job.Makes files before body →
        job.Emits files before body printed after → result = (⟨0, printed, []⟩, after)) ∧
      (result.1.exitCode ≠ 0 → ∃ cause, job.Refused files wording before cause) ∧
      ∀ cause, job.Refused files wording before cause →
        result = (⟨1, [], "error: ".toList ++ cause ++ ['\n']⟩, before)) ∧
    ∀ arguments, ((run files arguments wording).run before).1.exitCode ≠ 0 →
      ((run files arguments wording).run before).1.printed = [] ∧
        ((run files arguments wording).run before).2 = before := by
  refine ⟨?_, fun arguments h => run_of_exitCode_ne_zero hw h⟩
  intro arguments job ha hj result
  have hmade (body printed : Text) (after : σ) (hm : job.Makes files before body)
      (he : job.Emits files before body printed after) : result = (⟨0, printed, []⟩, after) :=
    run_of_request ha ((hm.run hw hj).trans he.delivered_eq) wording
  have hrefused (cause : Text) (h : job.Refused files wording before cause) :
      result = (⟨1, [], "error: ".toList ++ cause ++ ['\n']⟩, before) := by
    obtain ⟨failure, hrun, rfl⟩ := h.run hw hj
    exact run_of_request ha hrun wording
  refine ⟨?_, hmade, ?_, hrefused⟩
  · intro hzero
    rcases job.emits_or_refused files wording before with
      ⟨body, printed, after, hm, he⟩ | ⟨cause, h⟩
    · refine ⟨body, hm, ?_⟩
      rw [hmade body printed after hm he]
      exact he
    · rw [hrefused cause h] at hzero
      cases hzero
  · intro hone
    rcases job.emits_or_refused files wording before with
      ⟨body, printed, after, hm, he⟩ | hcause
    · rw [hmade body printed after hm he] at hone
      exact absurd rfl hone
    · exact hcause

/-- A plain name leads to the file that has it, or to none. -/
theorem Folder.walk_name (f : Folder) {name : Text} (hpieces : Text.pieces '/' name = [name])
    (hhead : name.head? ≠ some '/') (hdots : name ∉ [[], ['.'], ['.', '.']])
    (hsize : ¬ maxName < name.byteSize) : f.walk name = .ok (f.find name) := by
  simp only [List.mem_cons, List.not_mem_nil, or_false, not_or] at hdots
  rw [walk, hpieces, if_neg hhead, List.foldlM_cons, step, if_neg (by simp [hdots]),
    if_neg hdots.2.2, if_neg hsize]
  rfl

theorem Folder.write_fed_o (source content : Text) :
    (fed [] source).write ['o'] content = .ok (fed [(['o'], Text.encode content)] source) := by
  have hpath : ¬ maxPath < Text.byteSize ['o'] := by decide
  have hwalk : (fed [] source).walk ['o'] = .ok (.vacant ['o']) :=
    walk_name _ (by decide) (by decide) (by decide) (by decide)
  rw [write, if_neg hpath, if_neg (by simp), hwalk]
  rfl

theorem Folder.fileAt_fed_c (content source : Text) :
    surroundings.fileAt (fed [(['c'], Text.encode content)] source) ['c'] = .ok content := by
  have hpath : ¬ maxPath < Text.byteSize ['c'] := by decide
  have hwalk : (fed [(['c'], Text.encode content)] source).walk ['c'] =
      .ok (.file ['c'] (Text.encode content)) :=
    walk_name _ (by decide) (by decide) (by decide) (by decide)
  have hread : (fed [(['c'], Text.encode content)] source).read ['c'] =
      .ok (Text.encode content) := by
    rw [read, if_neg hpath, hwalk]
    rfl
  change decoded ((fed [(['c'], Text.encode content)] source).read ['c']) = .ok content
  rw [hread, decoded_encode]

/-- A document that is written to a file, a template whose block is never closed, and a
configuration file with an unknown key, with what the reader of such files says about it. -/
theorem run_all_or_nothing_folder :
    let header : Header := ⟨['T'], none, none, none, none⟩
    let unclosed := ' ' :: TagFault.tagged '#' "if a".toList
    let fault := ("TOML parse error at line 1, column 1\n  |\n1 | depth = 3\n  | ^^^^^\n" ++
      "unknown field `depth`, expected `syntax` or `max_depth`\n").toList
    let wording : Wording := { config := fun _ => fault }
    let configured := Folder.fed [(['c'], Text.encode "depth = 3".toList)] ['a']
    (run Folder.surroundings ["transpile".toList, "--title=T".toList, "-oo".toList, ['-']]
        wording).run (Folder.fed [] ['a']) =
      (⟨0, [], []⟩, Folder.fed [(['o'], Text.encode (header.document ['a']))] ['a']) ∧
    (run Folder.surroundings ["transpile".toList, "-oo".toList, ['-']] wording).run
        (Folder.fed [] unclosed) =
      (⟨1, [], "error: ".toList ++ ("-:1:2: parse error at byte 1: unclosed ".toList ++
        TagFault.tagged '#' "if".toList) ++ ['\n']⟩, Folder.fed [] unclosed) ∧
    (run Folder.surroundings ["transpile".toList, "-cc".toList, ['-']] wording).run configured =
      (⟨1, [], "error: ".toList ++ ("loading config c: invalid config: ".toList ++ fault) ++
        ['\n']⟩, configured) := by
  intro header unclosed fault wording configured
  -- What the reader says is not looked into.
  clear_value fault
  refine ⟨?_, ?_, ?_⟩
  · have hall := run_all_or_nothing Folder.surroundings_whole wording (Folder.fed [] ['a'])
    obtain ⟨-, hmade, -⟩ := hall.1
      ["transpile".toList, "--title=T".toList, "-oo".toList, ['-']]
      ⟨['-'], false, none, some ['o'], some header⟩ (by decide +kernel) rfl
    refine hmade ['a'] [] _ ⟨{}, ['a'], rfl, Folder.inputAt_fed _ _, by decide +kernel⟩ ⟨rfl, ?_⟩
    rw [Folder.surroundings_write_run, Folder.write_fed_o]
    rfl
  · have hall := run_all_or_nothing Folder.surroundings_whole wording (Folder.fed [] unclosed)
    let job : Transpilation := ⟨['-'], false, none, some ['o'], none⟩
    obtain ⟨-, -, -, hrefused⟩ := hall.1 ["transpile".toList, "-oo".toList, ['-']] job
      (by decide +kernel) rfl
    have hload : job.Loads Folder.surroundings (Folder.fed [] unclosed) {} := rfl
    have hfault : transpile {} unclosed =
        .error (.tag (.unclosedBlock "if".toList) 1) := by decide +kernel
    have hposition : position unclosed 1 = (1, 2) := by decide +kernel
    exact hrefused _ (.tag hload (Folder.inputAt_fed _ _) hfault hposition)
  · have hall := run_all_or_nothing Folder.surroundings_whole wording configured
    let job : Transpilation := ⟨['-'], false, some ['c'], none, none⟩
    obtain ⟨-, -, -, hrefused⟩ := hall.1 ["transpile".toList, "-cc".toList, ['-']] job
      (by decide +kernel) rfl
    have htoml : Options.ofToml "depth = 3".toList = .error (.config .unreadable) := by
      decide +kernel
    have hfile : Folder.surroundings.fileAt configured ['c'] = .ok "depth = 3".toList :=
      Folder.fileAt_fed_c _ _
    exact hrefused _ (.config rfl hfile htoml)

end Command

end HandlebarsToTwig
