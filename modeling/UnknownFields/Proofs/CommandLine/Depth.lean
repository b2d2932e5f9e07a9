import UnknownFields.Proofs.CommandLine.Runs
import UnknownFields.Proofs.Text.Decimal

/-!
The depth of a run as a choice between two places that name it. A run that is told no depth is the run
that is told what the variable comes to, whatever the variable is then; a run that is told one is the
same whatever the variable is.
-/

namespace UnknownFields.CommandLine

/-- What the variable comes to where no depth is told. A variable that is not set, or whose bytes are
no text, counts for nothing. -/
inductive Inherits : Option Bytes → Nat → Prop where
  | written {raw : String} {core : List Char} {depth : Nat} (trims : Text.Trims raw.toList core)
      (numeral : Decimal.Numeral core depth) (small : depth < 2 ^ 32) :
      Inherits (some raw.toUTF8.data.toList) depth
  | unset : Inherits none 100
  | notText {bytes : Bytes} (not_text : ∀ raw : String, raw.toUTF8.data.toList ≠ bytes) :
      Inherits (some bytes) 100

def addDepth (depth : Nat) : List String → List String
  | [] => []
  | name :: rest => name :: "--max-depth" :: toString depth :: rest

def Options.withDepth (depth : Nat) (options : Options) : Options :=
  { options with maxDepth := some depth }

def Given.withDepth (depth : Nat) (given : Given) : Given :=
  { given with options := given.options.withDepth depth }

@[simp] theorem Given.withDepth_paths (depth : Nat) (given : Given) :
    (given.withDepth depth).paths = given.paths := rfl

def Command.withDepth (depth : Nat) : Command → Command
  | compare left right options => .compare left right (options.withDepth depth)
  | dump input options => .dump input (options.withDepth depth)

/-- Reading goes through without a depth being told, and it goes through in the same way if one has
been told before. -/
def DepthFree (read : Given → Except Stop Given) : Prop :=
  ∀ ⦃given after⦄, read given = .ok after → after.options.maxDepth = none →
    given.options.maxDepth = none ∧
      ∀ depth, read (given.withDepth depth) = .ok (after.withDepth depth)

/-! ### Reading the arguments -/

theorem DepthFree.addPath (shape : Shape) (path : String) :
    DepthFree fun given => addPath shape given path := by
  intro given after h hnone
  simp only [CommandLine.addPath] at h ⊢
  split_ifs at h with hrefused
  cases h
  exact ⟨hnone, fun depth => if_neg hrefused⟩

theorem DepthFree.setHex : DepthFree setHex := by
  intro given after h hnone
  rw [CommandLine.setHex] at h
  split_ifs at h with hgiven
  cases h
  exact ⟨hnone, fun depth => if_neg hgiven⟩

theorem DepthFree.addSetting (setting : Setting) (text : String) :
    DepthFree fun given => addSetting given setting text := by
  intro given after h hnone
  simp only [CommandLine.addSetting] at h ⊢
  split_ifs at h with hgiven
  split at h
  case h_2 => cases h
  next options hset =>
    cases h
    cases setting with
    | maxDepth =>
        -- This tells a depth, so the options have one afterwards.
        obtain ⟨number, _, hoptions⟩ := bind_eq_ok.mp hset
        cases hoptions
        cases hnone
    | arenaBytes =>
        obtain ⟨number, hnumber, hoptions⟩ := bind_eq_ok.mp hset
        cases hoptions
        refine ⟨hnone, fun depth => ?_⟩
        have hgiven' : ¬Setting.isGiven (given.withDepth depth).options .arenaBytes = true := hgiven
        rw [if_neg hgiven']
        simp only [Setting.set, hnumber, ok_bind, pure_eq_ok]
        rfl

/-- One reading behind another. -/
theorem DepthFree.bind {read goOn : Given → Except Stop Given} (hread : DepthFree read)
    {given after : Given} (h : read given >>= goOn = .ok after)
    (hgoOn : ∀ middle, goOn middle = .ok after → middle.options.maxDepth = none ∧
      ∀ depth, goOn (middle.withDepth depth) = .ok (after.withDepth depth)) :
    given.options.maxDepth = none ∧
      ∀ depth, read (given.withDepth depth) >>= goOn = .ok (after.withDepth depth) := by
  obtain ⟨middle, hmiddle, hafter⟩ := bind_eq_ok.mp h
  obtain ⟨hnone, hgoOn⟩ := hgoOn middle hafter
  obtain ⟨hfree, hread⟩ := hread hmiddle hnone
  exact ⟨hfree, fun depth => by rw [hread depth, ok_bind, hgoOn depth]⟩

theorem DepthFree.addPaths (shape : Shape) (paths : List String) :
    DepthFree fun given => paths.foldlM (CommandLine.addPath shape) given := by
  induction paths with
  | nil =>
      intro given after h hnone
      cases h
      exact ⟨hnone, fun _ => rfl⟩
  | cons path paths ih =>
      intro given after h hnone
      simp only [List.foldlM_cons] at h ⊢
      exact (DepthFree.addPath shape path).bind h fun middle hafter => ih hafter hnone

theorem DepthFree.readGiven (shape : Shape) (args : List String) :
    DepthFree fun given => readGiven shape given args := by
  intro given after h hnone
  dsimp only at h ⊢
  fun_induction CommandLine.readGiven shape given args with
  | case1 =>
      cases h
      exact ⟨hnone, fun _ => rfl⟩
  | case2 given arg rest harg =>
      simp only [CommandLine.readGiven, harg]
      exact DepthFree.addPaths shape rest h hnone
  | case4 given arg text _ harg rest hread ih =>
      simp only [CommandLine.readGiven, harg, hread]
      exact DepthFree.setHex.bind h ih
  | case5 given arg text _ harg setting value rest hread ih =>
      simp only [CommandLine.readGiven, harg, hread]
      exact (DepthFree.addSetting setting value).bind h ih
  | case7 given arg text _ harg setting value rest hread hflag ih =>
      simp only [CommandLine.readGiven, harg, hread, if_neg hflag]
      exact (DepthFree.addSetting setting value).bind h ih
  | case12 given arg rest _ _ _ _ ih =>
      simp only [CommandLine.readGiven]
      exact (DepthFree.addPath shape arg).bind h ih
  | case3 | case6 | case8 | case9 | case10 | case11 => cases h

/-! ### Commands -/

variable {args : List String} {command : Command} {depth : Nat}

theorem isFlag_toString (number : Nat) : isFlag (toString number) = false := by
  unfold isFlag
  split
  · next hminus =>
      have hdigit : '-'.isDigit = true :=
        Decimal.isDigit_of_mem_toString (hminus ▸ List.mem_cons_self)
      cases hdigit
  · rfl

/-- A depth that is told first is taken, and reading goes on. -/
theorem readGiven_told (shape : Shape) (hdepth : depth < 2 ^ 32) (rest : List String) :
    readGiven shape {} ("--max-depth" :: toString depth :: rest) =
      readGiven shape (Given.withDepth depth {}) rest := by
  have hname : "--max-depth".toList = '-' :: '-' :: 'm' :: "ax-depth".toList := rfl
  have hread : LongOption.read shape ('m' :: "ax-depth".toList) = .setting .maxDepth none := by cbv
  have hnumber : Decimal.readSigned UInt32.size (toString depth).toList = .ok depth :=
    Decimal.readSigned_toString hdepth
  have hset : addSetting {} .maxDepth (toString depth) = .ok (Given.withDepth depth {}) := by
    simp only [addSetting, Setting.set, hnumber, ok_bind, pure_eq_ok]
    rfl
  rw [readGiven]
  simp only [hname, hread, isFlag_toString, Bool.false_eq_true, if_false, hset, ok_bind]

theorem readGiven_addDepth {shape : Shape} {rest : List String} {given : Given}
    (h : readGiven shape {} rest = .ok given) (hfree : given.options.maxDepth = none)
    (hdepth : depth < 2 ^ 32) :
    readGiven shape {} ("--max-depth" :: toString depth :: rest) = .ok (given.withDepth depth) := by
  rw [readGiven_told shape hdepth]
  exact (DepthFree.readGiven shape rest h hfree).2 depth

theorem readCommand_addDepth (h : readCommand args = .ok command)
    (hfree : command.options.maxDepth = none) (hdepth : depth < 2 ^ 32) :
    readCommand (addDepth depth args) = .ok (command.withDepth depth) := by
  unfold readCommand at h
  split at h
  case h_2 =>
    obtain ⟨given, hgiven, hpaths⟩ := bind_eq_ok.mp h
    split at hpaths
    · next left right hlist =>
      cases hpaths
      simp only [addDepth, readCommand, readGiven_addDepth hgiven hfree hdepth, ok_bind,
        Given.withDepth_paths, hlist]
      rfl
    · cases hpaths
  case h_3 =>
    obtain ⟨given, hgiven, hpaths⟩ := bind_eq_ok.mp h
    split at hpaths
    · next input hlist =>
      cases hpaths
      simp only [addDepth, readCommand, readGiven_addDepth hgiven hfree hdepth, ok_bind,
        Given.withDepth_paths, hlist]
      rfl
    · cases hpaths
  case h_5 =>
    split at h
    · cases h
    · split_ifs at h
  all_goals cases h

/-! ### The variable -/

theorem variableText_eq_some_iff {bytes : Bytes} {raw : String} :
    variableText (some bytes) = some raw ↔ raw.toUTF8.data.toList = bytes := by
  simp only [variableText, Option.bind_some, String.fromUTF8?]
  split
  · next hvalid =>
    rw [Option.some.injEq]
    constructor
    · rintro rfl
      rfl
    · rintro rfl
      rfl
  · next hinvalid =>
    refine ⟨nofun, ?_⟩
    rintro rfl
    exact absurd raw.isValidUTF8 hinvalid

variable {options : Options} {environment : Option Bytes}

theorem Inherits.lt (h : Inherits environment depth) : depth < 2 ^ 32 := by
  cases h with
  | written _ _ small => exact small
  | unset | notText => decide

theorem Inherits.resolves (h : Inherits environment depth) (hfree : options.maxDepth = none) :
    Resolves options environment depth := by
  cases h with
  | written trims numeral small =>
      refine .inherited hfree (variableText_eq_some_iff.mpr rfl) ?_
      rw [trims.trim_eq]
      exact (Decimal.read_eq_ok_iff (by decide)).mpr ⟨numeral, small⟩
  | unset => exact .usual hfree rfl
  | notText not_text =>
      refine .usual hfree (Option.eq_none_iff_forall_ne_some.mpr fun raw hraw => ?_)
      exact not_text raw (variableText_eq_some_iff.mp hraw)

theorem Resolves.inherits (h : Resolves options environment depth)
    (hfree : options.maxDepth = none) : Inherits environment depth := by
  cases h with
  | option given =>
      rw [hfree] at given
      cases given
  | inherited _ text reads =>
      cases environment with
      | none => cases text
      | some bytes =>
          rw [variableText_eq_some_iff] at text
          obtain ⟨hnumeral, hsmall⟩ := (Decimal.read_eq_ok_iff (by decide)).mp reads
          exact text ▸ .written (Text.trims_trim _) hnumeral hsmall
  | usual _ unset =>
      cases environment with
      | none => exact .unset
      | some bytes =>
          refine .notText fun raw hraw => ?_
          rw [variableText_eq_some_iff.mpr hraw] at unset
          cases unset

/-! ### Runs -/

/-- What a command needs is there in the same way if its depth is told. -/
theorem prepare_withDepth (h : Resolves command.options environment depth) (other : Option Bytes)
    (files : Files) :
    prepare environment files command = prepare other files (command.withDepth depth) := by
  have htold {options : Options} :
      limitsFor (options.withDepth depth) other = .ok ⟨depth, options.arenaBytes⟩ :=
    (Resolves.option rfl).limitsFor_eq
  cases command with
  | compare left right options =>
      have hlimits : limitsFor options environment = .ok ⟨depth, options.arenaBytes⟩ :=
        h.limitsFor_eq
      simp only [prepare, Command.withDepth, hlimits, htold]
      rfl
  | dump input options =>
      have hlimits : limitsFor options environment = .ok ⟨depth, options.arenaBytes⟩ :=
        h.limitsFor_eq
      simp only [prepare, Command.withDepth, hlimits, htold]
      rfl

theorem run_of_resolves (h : readCommand args = .ok command)
    (hdepth : Resolves command.options environment depth) (mode : Mode) (other : Option Bytes)
    (files : Files) :
    run mode args environment files = runCommand mode other files (command.withDepth depth) := by
  rw [run_of_readCommand h, runCommand, runCommand, prepare_withDepth hdepth other]

/-- **A depth that is not told is that of the variable.** Take arguments that are read as a command and
any files. Where they tell no depth and the variable comes to one, because it is a numeral between
white space, or because it is not set or no text, the run is the one with this depth told right behind
the command, whatever the variable is then. Where the variable comes to none, the run ends with status
3 and writes no output, and its answer is the same for all files. Where the arguments tell a depth,
the run is the same for all values of the variable. -/
theorem run_told {args : List String} {command : Command} (h : readCommand args = .ok command)
    (environment : Option Bytes) :
    (command.options.maxDepth = none →
      (∀ depth, Inherits environment depth → ∀ mode files other,
        run mode args environment files = run mode (addDepth depth args) other files) ∧
      ((∀ depth, ¬Inherits environment depth) → ∃ response complaint,
        response.Gives 3 "" complaint ∧
        ∀ mode files, run mode args environment files = .ok response)) ∧
    ∀ depth, command.options.maxDepth = some depth → ∀ mode files other,
      run mode args environment files = run mode args other files := by
  refine ⟨fun hfree => ⟨fun depth hinherits mode files other => ?_, fun hnone => ?_⟩,
    fun depth htold mode files other => ?_⟩
  · rw [run_of_resolves h (hinherits.resolves hfree) mode other files,
      run_of_readCommand (readCommand_addDepth h hfree hinherits.lt)]
  · rcases resolves_or_badDepth command.options environment with ⟨depth, hdepth⟩ | ⟨error, hbad⟩
    · exact absurd (hdepth.inherits hfree) (hnone depth)
    · refine ⟨.complaint error.message Status.unusable, error.message ++ "\n",
        ⟨rfl, fun _ => rfl, fun _ => rfl⟩, fun mode files => ?_⟩
      rw [run_of_readCommand h, runCommand, prepare_of_limitsFor hbad.limitsFor_eq]
  · rw [run_of_resolves h (.option htold) mode other, run_of_resolves h (.option htold) mode other]

/-- A depth with a sign, a leading zero and white space around, text that is no numeral, and a depth
that is told. -/
theorem run_told_dump :
    readCommand ["dump", "a"] = .ok (.dump "a" {}) ∧
    Inherits (some " +07\n".toUTF8.data.toList) 7 ∧
    (∀ mode files, run mode ["dump", "a"] (some " +07\n".toUTF8.data.toList) files =
      run mode ["dump", "--max-depth", "7", "a"] none files) ∧
    (∀ depth, ¬Inherits (some "x".toUTF8.data.toList) depth) ∧
    (∃ response complaint, response.Gives 3 "" complaint ∧
      ∀ mode files, run mode ["dump", "a"] (some "x".toUTF8.data.toList) files = .ok response) ∧
    ∀ mode files, run mode ["dump", "--max-depth", "7", "a"] (some "x".toUTF8.data.toList) files =
      run mode ["dump", "--max-depth", "7", "a"] none files := by
  have hread : readCommand ["dump", "a"] = .ok (.dump "a" {}) := by cbv
  have hread' : readCommand ["dump", "--max-depth", "7", "a"] =
      .ok (.dump "a" { maxDepth := some 7 }) := by cbv
  have htrims : Text.Trims " +07\n".toList "+07".toList := Text.trims_iff.mpr (by cbv)
  have hnumeral : Decimal.Numeral "+07".toList 7 :=
    @Decimal.Numeral.signed ['0', '7'] (List.cons_ne_nil _ _) (by simp [Char.isDigit])
  have hinherits : Inherits (some " +07\n".toUTF8.data.toList) 7 :=
    .written htrims hnumeral (by decide)
  have hnone : ∀ depth, ¬Inherits (some "x".toUTF8.data.toList) depth := by
    intro depth hdepth
    have hbad : BadDepth {} (some "x".toUTF8.data.toList) (.badDepth "x" .invalidDigit) :=
      .inherited rfl (variableText_eq_some_iff.mpr rfl) (by cbv)
    have hresolves : Resolves {} (some "x".toUTF8.data.toList) depth := hdepth.resolves rfl
    cases hresolves.limitsFor_eq.symm.trans hbad.limitsFor_eq
  refine ⟨hread, hinherits, fun mode files => ?_, hnone, ((run_told hread _).1 rfl).2 hnone,
    fun mode files => (run_told hread' _).2 7 rfl mode files none⟩
  have hadd : addDepth 7 ["dump", "a"] = ["dump", "--max-depth", "7", "a"] := by cbv
  rw [← hadd]
  exact ((run_told hread _).1 rfl).1 7 hinherits mode files none

end UnknownFields.CommandLine
