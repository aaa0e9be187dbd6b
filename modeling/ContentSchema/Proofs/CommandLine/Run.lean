import ContentSchema.CommandLine.Run
import ContentSchema.Proofs.CommandLine.Arguments
import ContentSchema.Proofs.Files.Atomic
import ContentSchema.Proofs.Log

/-! # Complete runs

A run completes where the options, the input and the generated text can be had and the text can be
delivered. Then the text is in the one place where it should be; otherwise nothing is different.
-/

namespace ContentSchema

open CommandLine

variable {State Place File : Type} (fs : AtomicDisk State Place File) {s : State}

/-- A run has ended with an error, and has printed nothing. -/
def CommandLine.Outcome.IsFailure (outcome : Outcome) : Prop :=
  outcome.exitCode ≠ 0 ∧ outcome.output = ""

theorem CommandLine.Outcome.isFailure_failed {logged warnings : List String} {message : String} :
    (Outcome.failed logged warnings message).IsFailure := ⟨Nat.one_ne_zero, rfl⟩

namespace AtomicDisk

def text (s : State) (path : String) : Except FileError String := ((fs.disk.read path).run s).1

def isFile (s : State) (path : String) : Bool := ((fs.disk.isFile path).run s).1

theorem run_read_eq (s : State) (path : String) :
    (fs.disk.read path).run s = (fs.text s path, s) :=
  Prod.ext rfl (fs.run_read path s)

theorem run_isFile_eq (s : State) (path : String) :
    (fs.disk.isFile path).run s = (fs.isFile s path, s) :=
  Prod.ext rfl (fs.run_isFile path s)

def HasOptions (s : State) (path : String) (options : Options) : Prop :=
  ∃ text, fs.text s path = .ok text ∧ Options.ofText text = .ok options

/-- The options that a run finds: those of the file that is named, or else those of the working
directory, which may be without any. -/
inductive GivesOptions (s : State) (directory : String) : Option String → Options → Prop
  | named {path : String} {options : Options} (h : fs.HasOptions s path options) :
    GivesOptions s directory (some path) options
  | found {options : Options} (hf : fs.isFile s (joinPath directory optionsFileName))
    (h : fs.HasOptions s (joinPath directory optionsFileName) options) :
    GivesOptions s directory none options
  | missing (hf : ¬ fs.isFile s (joinPath directory optionsFileName)) :
    GivesOptions s directory none .empty

/-- What a run comes to if the text goes to this output: it is printed, or it is all that is
different in one file. -/
inductive Delivered (s : State) (logged : List String) (generated : Generated) :
    Option String → Outcome → State → Prop
  | printed : Delivered s logged generated none
    ⟨0, generated.source, logged, generated.warnings.map ("warning: " ++ ·)⟩ s
  | written {path : String} {place : Place} {after : State} (ht : fs.target s path = .ok place)
    (hw : (fs.disk.write path generated.source).run s = (.ok (), after))
    (hp : fs.file? after place = some (fs.ofText generated.source))
    (ho : ∀ other, other ≠ place → fs.file? after other = fs.file? s other) :
    Delivered s logged generated (some path)
      ⟨0, "", logged, generated.warnings.map ("warning: " ++ ·) ++ ["wrote " ++ path]⟩ after

variable {fs} in
theorem Delivered.exitCode {logged : List String} {generated : Generated} {output : Option String}
    {outcome : Outcome} {after : State}
    (h : fs.Delivered s logged generated output outcome after) : outcome.exitCode = 0 := by
  cases h <;> rfl

variable {fs} in
/-- The error output is the log, a message for each warning and, where a file is written, one more. -/
theorem Delivered.errorOutput {logged : List String} {generated : Generated}
    {output : Option String} {outcome : Outcome} {after : State}
    (h : fs.Delivered s logged generated output outcome after) (log : Log) :
    outcome.errorOutput log = log logged ++ generated.warnings.map ("warning: " ++ ·) ++
      (output.map ("wrote " ++ ·)).toList := by
  cases h with
  | printed => exact (List.append_nil _).symm
  | written => exact (List.append_assoc _ _ _).symm

theorem run_bind {α β : Type} {first : StateM State α} {next : α → StateM State β} {a : α}
    {t : State} (h : first.run s = (a, t)) : (first >>= next).run s = (next a).run t := by
  rw [StateT.run_bind, h]
  rfl

theorem run_loadOptions (path : String) : ∃ r, (fs.disk.loadOptions path).run s = (r, s) ∧
    ∀ options, r = .ok options ↔ fs.HasOptions s path options := by
  rw [Disk.loadOptions, run_bind (fs.run_read_eq s path)]
  cases ht : fs.text s path with
  | error e => exact ⟨_, rfl, fun options => by simp [HasOptions, ht]⟩
  | ok text =>
    refine ⟨_, rfl, ?_⟩
    intro options
    cases ho : Options.ofText text <;> simp [HasOptions, ht, ho, Except.mapError]

theorem run_fileOptions (directory : String) (a : Arguments) :
    ∃ r, (a.fileOptions fs.disk directory).run s = (r, s) ∧
      ∀ options, r = .ok options ↔ fs.GivesOptions s directory a.options options := by
  unfold Arguments.fileOptions
  cases ha : a.options with
  | some path =>
    obtain ⟨r, hr, ho⟩ := fs.run_loadOptions (s := s) path
    refine ⟨r, hr, ?_⟩
    intro options
    rw [ho]
    constructor
    · exact .named
    · rintro (h | _ | _)
      exact h
  | none =>
    have hi := fs.run_isFile_eq s (joinPath directory optionsFileName)
    rw [Disk.discoverOptions, run_bind hi]
    cases hf : fs.isFile s (joinPath directory optionsFileName) with
    | true =>
      obtain ⟨r, hr, ho⟩ := fs.run_loadOptions (s := s) (joinPath directory optionsFileName)
      refine ⟨r, hr, ?_⟩
      intro options
      rw [ho]
      constructor
      · exact .found hf
      · rintro (_ | ⟨-, h⟩ | hn)
        · exact h
        · exact absurd hf hn
    | false =>
      refine ⟨_, rfl, ?_⟩
      intro options
      constructor
      · intro h
        obtain rfl := Except.ok.inj h
        exact .missing (by simp [hf])
      · rintro (_ | ⟨h, -⟩ | _)
        · simp [hf] at h
        · rfl

/-- A text is delivered, or it cannot be written and nothing is different. -/
theorem run_deliver (output : Option String) (logged : List String) (generated : Generated) :
    (∃ outcome after, (Arguments.deliver fs.disk output logged generated).run s = (outcome, after) ∧
      fs.Delivered s logged generated output outcome after) ∨
    ∃ outcome path e, (Arguments.deliver fs.disk output logged generated).run s = (outcome, s) ∧
      outcome.IsFailure ∧ output = some path ∧
      (fs.disk.write path generated.source).run s = (.error e, s) := by
  cases output with
  | none => exact .inl ⟨_, _, rfl, .printed⟩
  | some path =>
    rcases fs.run_write path generated.source s with ⟨e, hw⟩ | ⟨place, after, hw, ht, hp, ho⟩
    · rw [Arguments.deliver, run_bind hw]
      exact .inr ⟨_, path, e, rfl, Outcome.isFailure_failed, rfl, hw⟩
    · rw [Arguments.deliver, run_bind hw]
      exact .inl ⟨_, after, rfl, .written ht hw hp ho⟩

end AtomicDisk

namespace CommandLine

/-- The text that the arguments ask for: the stored graph, the module of a stored graph, or the
module of the content model. -/
inductive Arguments.Makes (a : Arguments) (settings : Settings) (text : String) : Generated → Prop
  | stored {generated : Generated} (h : a.emitStored)
    (hg : generateStored text settings = .ok generated) : Makes a settings text generated
  | rendered {generated : Generated} (h : a.fromStored)
    (hg : renderStored text settings = .ok generated) : Makes a settings text generated
  | neither {generated : Generated} (h : ¬ a.emitStored) (h' : ¬ a.fromStored)
    (hg : generate text settings = .ok generated) : Makes a settings text generated

theorem Arguments.makes_iff {a : Arguments} {settings : Settings} {text : String}
    {generated : Generated} (hx : ¬ (a.emitStored ∧ a.fromStored)) :
    a.Makes settings text generated ↔ a.generated settings text = .ok generated := by
  unfold Arguments.generated
  constructor
  · rintro (⟨h, hg⟩ | ⟨h, hg⟩ | ⟨h, h', hg⟩)
    · rwa [if_pos h]
    · rwa [if_neg fun he => hx ⟨he, h⟩, if_pos h]
    · rwa [if_neg h, if_neg h']
  · intro hg
    split at hg
    · next h => exact .stored h hg
    · next h =>
      split at hg
      · next h' => exact .rendered h' hg
      · next h' => exact .neither h h' hg

/-- What goes to the log on the way to the text: all warnings, but for those that a stored graph
comes with. -/
inductive Arguments.Logs (a : Arguments) (text : String) (generated : Generated) :
    List String → Prop
  | all (h : ¬ a.fromStored) : Logs a text generated generated.warnings
  | met {document : Json.Value} {met logged : List String} (h : a.fromStored)
    (hd : (Json.Document.ofText text).value? = some document)
    (hw : generated.warnings = storedWarnings document ++ met)
    (hl : List.Forall₂ Reports met logged) : Logs a text generated logged

theorem Arguments.logs {a : Arguments} {settings : Settings} {text : String}
    {generated : Generated} (hx : ¬ (a.emitStored ∧ a.fromStored))
    (h : a.Makes settings text generated) :
    a.Logs text generated (a.logged settings text) := by
  unfold Arguments.logged
  cases h with
  | stored he hg =>
    rw [if_pos he, generateStoredLog_eq hg]
    exact .all fun hf => hx ⟨he, hf⟩
  | rendered hf hg =>
    obtain ⟨document, met, hd, hw, hl⟩ := exists_warnings_of_renderStored hg
    rw [if_neg fun he => hx ⟨he, hf⟩, if_pos hf]
    exact .met hf hd hw hl
  | neither he hf hg =>
    rw [if_neg he, if_neg hf, generateLog_eq hg]
    exact .all hf

/-- What the flags and the options of the file come to. -/
def Arguments.settings (a : Arguments) (file : Options) : Settings where
  passthrough := a.passthrough || file.passthrough == some true
  flat := a.flat || file.flat == some true
  unknown :=
    if a.abortOnUnknown then .fail else (a.unknown.or file.policy.policy?).getD .warn
  naming := (file.naming.getD .empty).resolve

theorem Arguments.policy_merge (a : Arguments) (file : PolicyOptions) :
    (file.merge a.layer.policy).policy?.getD .warn =
      if a.abortOnUnknown then .fail else (a.unknown.or file.policy?).getD .warn := by
  have hl : a.layer.policy =
      ⟨if a.abortOnUnknown then some .fail else a.unknown, none, none⟩ := rfl
  rw [PolicyOptions.merge, hl]
  cases a.abortOnUnknown with
  | true => rfl
  | false => cases a.unknown <;> rfl

theorem Arguments.resolve_merge (a : Arguments) (file : Options) :
    (file.merge a.layer).resolve = a.settings file := by
  have switch (on : Bool) (setting : Option Bool) :
      ((if on then some true else none).or setting).getD false =
        (on || setting == some true) := by
    rcases on with _ | _ <;> rcases setting with _ | _ | _ <;> rfl
  have hn : (file.merge a.layer).naming = file.naming := by
    cases hn : file.naming <;> simp [Options.merge, hn, Options.mergeNaming, layer, Options.empty]
  rw [Options.resolve, settings, hn]
  congr
  · exact switch a.passthrough file.passthrough
  · exact a.policy_merge file.policy
  · exact switch a.flat file.flat

theorem Arguments.not_both {a : Arguments} {arguments : List String}
    (h : ofList arguments = .ok a) : ¬ (a.emitStored ∧ a.fromStored) := by
  obtain ⟨uses, -, hs, -, hx, -⟩ := reads_of_ofList h
  rwa [← hs, ← hs] at hx

structure Job where
  flags : Arguments
  fileOptions : Options
  input : String
  text : String
  generated : Generated

namespace Job

def settings (job : Job) : Settings := job.flags.settings job.fileOptions

/-- Where the text is to go: what the flags say comes before what the file says. -/
def output? (job : Job) : Option String := job.flags.output.or job.fileOptions.output

/-- All of this can be had from the arguments and the files. -/
structure Ready (job : Job) (s : State) (directory : String) (arguments : List String) : Prop where
  flags : Arguments.ofList arguments = .ok job.flags
  fileOptions : fs.GivesOptions s directory job.flags.options job.fileOptions
  input : job.flags.input.or job.fileOptions.input = some job.input
  text : fs.text s job.input = .ok job.text
  generated : job.flags.Makes job.settings job.text job.generated

end Job

variable {directory : String} {arguments : List String}

theorem Job.ready_iff (job : Job) {a : Arguments} {r : Except Failure Options}
    (ha : Arguments.ofList arguments = .ok a)
    (hr : ∀ options, r = .ok options ↔ fs.GivesOptions s directory a.options options) :
    job.Ready fs s directory arguments ↔ job.flags = a ∧ r = .ok job.fileOptions ∧
      (job.fileOptions.merge a.layer).input = some job.input ∧
      fs.text s job.input = .ok job.text ∧
      a.generated (job.fileOptions.merge a.layer).resolve job.text = .ok job.generated := by
  have hx := Arguments.not_both ha
  rw [a.resolve_merge]
  constructor
  · rintro ⟨hf, ho, hi, ht, hg⟩
    obtain rfl := Except.ok.inj (hf.symm.trans ha)
    exact ⟨rfl, (hr _).2 ho, hi, ht, (Arguments.makes_iff hx).1 hg⟩
  · rintro ⟨rfl, ho, hi, ht, hg⟩
    exact ⟨ha, (hr _).1 ho, hi, ht, (Arguments.makes_iff hx).2 hg⟩

/-- How a run can end: its job is delivered, or there is none that could be. -/
inductive Ends (s : State) (directory : String) (arguments : List String) :
    Outcome × State → Prop
  | delivered {job : Job} {outcome : Outcome} {after : State}
    (hj : job.Ready fs s directory arguments)
    (hd : fs.Delivered s (job.flags.logged job.settings job.text) job.generated job.output?
      outcome after) :
    Ends s directory arguments (outcome, after)
  | failed {outcome : Outcome} (hf : outcome.IsFailure)
    (hj : ∀ job : Job, job.Ready fs s directory arguments → ∃ path e, job.output? = some path ∧
      (fs.disk.write path job.generated.source).run s = (.error e, s)) :
    Ends s directory arguments (outcome, s)

theorem Ends.without {outcome : Outcome} (hf : outcome.IsFailure)
    (hj : ∀ job : Job, ¬ job.Ready fs s directory arguments) :
    Ends fs s directory arguments (outcome, s) :=
  .failed hf fun job h => absurd h (hj job)

theorem run_arguments {a : Arguments} (ha : Arguments.ofList arguments = .ok a) :
    Ends fs s directory arguments ((a.run fs.disk directory).run s) := by
  obtain ⟨r, hr, ho⟩ := fs.run_fileOptions (s := s) directory a
  have ready (job : Job) : job.Ready fs s directory arguments ↔ _ := job.ready_iff fs ha ho
  rw [Arguments.run, AtomicDisk.run_bind hr]
  -- what is missing for a run, no job can have
  cases r with
  | error failure =>
    refine .without fs Outcome.isFailure_failed ?_
    intro job hj
    obtain ⟨-, he, -⟩ := (ready job).1 hj
    cases he
  | ok options =>
    dsimp only
    cases hi : (options.merge a.layer).input with
    | none =>
      refine .without fs Outcome.isFailure_failed ?_
      intro job hj
      obtain ⟨-, he, hi', -⟩ := (ready job).1 hj
      obtain rfl := Except.ok.inj he
      cases hi.symm.trans hi'
    | some input =>
      dsimp only
      rw [AtomicDisk.run_bind (fs.run_read_eq s input)]
      cases ht : fs.text s input with
      | error e =>
        refine .without fs Outcome.isFailure_failed ?_
        intro job hj
        obtain ⟨-, he, hi', ht', -⟩ := (ready job).1 hj
        obtain rfl := Except.ok.inj he
        obtain rfl := Option.some.inj (hi.symm.trans hi')
        cases ht.symm.trans ht'
      | ok text =>
        dsimp only
        cases hg : a.generated (options.merge a.layer).resolve text with
        | error failure =>
          refine .without fs Outcome.isFailure_failed ?_
          intro job hj
          obtain ⟨-, he, hi', ht', hg'⟩ := (ready job).1 hj
          obtain rfl := Except.ok.inj he
          obtain rfl := Option.some.inj (hi.symm.trans hi')
          obtain rfl := Except.ok.inj (ht.symm.trans ht')
          cases hg.symm.trans hg'
        | ok generated =>
          dsimp only
          have hj : Job.Ready fs ⟨a, options, input, text, generated⟩ s directory arguments :=
            (ready _).2 ⟨rfl, rfl, hi, ht, hg⟩
          rw [a.resolve_merge]
          rcases fs.run_deliver (s := s) (options.merge a.layer).output
            (a.logged (a.settings options) text) generated with
            ⟨outcome, after, hr, hd⟩ | ⟨outcome, path, e, hr, hf, hp, hw⟩
          · rw [hr]
            exact .delivered hj hd
          · rw [hr]
            refine .failed hf ?_
            intro job hj
            obtain ⟨rfl, he, hi', ht', hg'⟩ := (ready job).1 hj
            obtain rfl := Except.ok.inj he
            obtain rfl := Option.some.inj (hi.symm.trans hi')
            obtain rfl := Except.ok.inj (ht.symm.trans ht')
            obtain rfl := Except.ok.inj (hg.symm.trans hg')
            exact ⟨path, e, hp, hw⟩

theorem run_ends (hh : Arguments.ofList arguments ≠ .error .help)
    (hv : Arguments.ofList arguments ≠ .error .version) :
    Ends fs s directory arguments ((run fs.disk directory arguments).run s) := by
  unfold run
  cases ha : Arguments.ofList arguments with
  | ok a => exact run_arguments fs ha
  | error stop =>
    cases stop with
    | help => exact absurd ha hh
    | version => exact absurd ha hv
    | misuse cause =>
      refine .without fs ⟨Nat.succ_ne_zero 1, rfl⟩ ?_
      intro job hj
      cases ha.symm.trans hj.flags

end CommandLine

/-- A directory with a model that gives two warnings, and with a file of options. -/
def workingTree : FileTree :=
  ⟨[(["contentful-zod.config.json"],
      "\x7b\"input\": \"m.json\", \"output\": \"out.ts\", \"unknown\": \"fail\"\x7d"),
    (["m.json"],
      "\x7b\"contentTypes\": [\x7b\"sys\": \x7b\"id\": \"page\"\x7d, \"fields\": [" ++
      "\x7b\"id\": \"data\", \"type\": \"Object\"\x7d, " ++
      "\x7b\"id\": \"next\", \"type\": \"Link\", \"linkType\": \"Entry\", \"validations\": [" ++
      "\x7b\"linkContentType\": [\"page\", \"ghost\"]\x7d]\x7d]\x7d]\x7d")]⟩

end ContentSchema
