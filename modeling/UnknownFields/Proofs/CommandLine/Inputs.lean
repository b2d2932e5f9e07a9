import Mathlib.Tactic
import UnknownFields.CommandLine.Run

/-!
What a command needs, as relations between what a run is given and what it takes from it: a depth and
the bytes of its inputs, or the first reason why there are none. Preparing a command finds the one or
the other.
-/

namespace UnknownFields.CommandLine

def Command.options : Command → Options
  | compare _ _ options | dump _ options => options

/-- What the variable says, if it is set and is text. -/
def variableText (environment : Option Bytes) : Option String :=
  environment.bind fun bytes => String.fromUTF8? ⟨bytes.toArray⟩

/-- The depth that the options and the variable come to. -/
inductive Resolves (options : Options) (environment : Option Bytes) : Nat → Prop where
  | option {depth : Nat} (given : options.maxDepth = some depth) :
      Resolves options environment depth
  | inherited {depth : Nat} {raw : String} (free : options.maxDepth = none)
      (text : variableText environment = some raw)
      (reads : Decimal.read UInt32.size (Text.trim raw.toList) = .ok depth) :
      Resolves options environment depth
  | usual (free : options.maxDepth = none) (unset : variableText environment = none) :
      Resolves options environment defaultMaxDepth

/-- The variable is asked for a depth and does not say one. -/
inductive BadDepth (options : Options) (environment : Option Bytes) : RunError → Prop where
  | inherited {raw : String} {cause : Decimal.Error} (free : options.maxDepth = none)
      (text : variableText environment = some raw)
      (fails : Decimal.read UInt32.size (Text.trim raw.toList) = .error cause) :
      BadDepth options environment (.badDepth raw cause)

def Decodes (hex : Bool) (raw bytes : Bytes) : Prop :=
  if hex then Hex.decode raw = .ok bytes else bytes = raw

/-- The file under a path stands for these bytes, and they are well formed. -/
def Supplies (files : Files) (hex : Bool) (path : String) (bytes : Bytes) : Prop :=
  ∃ raw, files path = .ok raw ∧ Decodes hex raw bytes ∧ WellFormed.check bytes = .ok ()

/-- Why a path is of no use. -/
inductive Refuses (files : Files) (hex : Bool) (path : String) : RunError → Prop where
  | unreadable {cause : FileError} (fails : files path = .error cause) :
      Refuses files hex path (.unreadable path cause)
  | notHex {raw : Bytes} {cause : Hex.Error} (reads : files path = .ok raw) (is_hex : hex = true)
      (fails : Hex.decode raw = .error cause) : Refuses files hex path (.notHex path cause)
  | malformed {raw bytes : Bytes} {cause : Malformed} (reads : files path = .ok raw)
      (decodes : Decodes hex raw bytes) (fails : WellFormed.check bytes = .error cause) :
      Refuses files hex path (.malformed path cause)

/-- The first thing that is wrong: the depth, or an input behind others that are in order. -/
inductive FirstFailure (environment : Option Bytes) (files : Files) (command : Command) :
    RunError → Prop where
  | depth {error : RunError} (bad : BadDepth command.options environment error) :
      FirstFailure environment files command error
  | input {depth : Nat} {earlier later : List String} {path : String} {error : RunError}
      (resolves : Resolves command.options environment depth)
      (paths_eq : command.paths = earlier ++ path :: later)
      (supplied : ∀ before ∈ earlier, ∃ bytes, Supplies files command.options.hex before bytes)
      (refuses : Refuses files command.options.hex path error) :
      FirstFailure environment files command error

variable {options : Options} {environment : Option Bytes} {files : Files} {hex : Bool}
  {path : String} {bytes : Bytes} {error : RunError}

/-! ### The depth -/

theorem depthOfVariable_eq (environment : Option Bytes) :
    depthOfVariable environment =
      match variableText environment with
      | none => .ok defaultMaxDepth
      | some raw =>
        match Decimal.read UInt32.size (Text.trim raw.toList) with
        | .ok depth => .ok depth
        | .error cause => .error (.badDepth raw cause) := rfl

theorem Resolves.limitsFor_eq {depth : Nat} (h : Resolves options environment depth) :
    limitsFor options environment = .ok ⟨depth, options.arenaBytes⟩ := by
  cases h with
  | option given => simp only [limitsFor, given, pure_eq_ok, ok_bind]
  | inherited free text reads =>
      simp only [limitsFor, free, depthOfVariable_eq, text, reads, pure_eq_ok, ok_bind]
  | usual free unset => simp only [limitsFor, free, depthOfVariable_eq, unset, pure_eq_ok, ok_bind]

theorem BadDepth.limitsFor_eq (h : BadDepth options environment error) :
    limitsFor options environment = .error error := by
  cases h with
  | inherited free text fails =>
      simp only [limitsFor, free, depthOfVariable_eq, text, fails, error_bind]

theorem resolves_or_badDepth (options : Options) (environment : Option Bytes) :
    (∃ depth, Resolves options environment depth) ∨ ∃ error, BadDepth options environment error := by
  cases hgiven : options.maxDepth with
  | some depth => exact Or.inl ⟨depth, .option hgiven⟩
  | none =>
      cases htext : variableText environment with
      | none => exact Or.inl ⟨_, .usual hgiven htext⟩
      | some raw =>
          cases hread : Decimal.read UInt32.size (Text.trim raw.toList) with
          | ok depth => exact Or.inl ⟨depth, .inherited hgiven htext hread⟩
          | error cause => exact Or.inr ⟨_, .inherited hgiven htext hread⟩

/-! ### The inputs -/

theorem loadInput_eq (files : Files) (hex : Bool) (path : String) :
    loadInput files hex path =
      match files path with
      | .error cause => .error (.unreadable path cause)
      | .ok raw =>
        match if hex then Hex.decode raw else .ok raw with
        | .error cause => .error (.notHex path cause)
        | .ok bytes =>
          match WellFormed.check bytes with
          | .error cause => .error (.malformed path cause)
          | .ok () => .ok bytes := by
  rw [loadInput]
  cases files path with
  | error cause => rfl
  | ok raw =>
      cases hex with
      | false => cases hcheck : WellFormed.check raw <;> simp [Except.mapError, hcheck]
      | true =>
          cases hdecode : Hex.decode raw with
          | error cause => simp [Except.mapError, hdecode]
          | ok bytes =>
              cases hcheck : WellFormed.check bytes <;> simp [Except.mapError, hdecode, hcheck]

theorem decodes_iff {raw : Bytes} :
    Decodes hex raw bytes ↔ (if hex then Hex.decode raw else .ok raw) = .ok bytes := by
  cases hex with
  | false => simp [Decodes, eq_comm]
  | true => simp [Decodes]

theorem Supplies.loadInput_eq (h : Supplies files hex path bytes) :
    loadInput files hex path = .ok bytes := by
  obtain ⟨raw, hreads, hdecodes, hcheck⟩ := h
  simp only [CommandLine.loadInput_eq, hreads, decodes_iff.mp hdecodes, hcheck]

theorem Refuses.loadInput_eq (h : Refuses files hex path error) :
    loadInput files hex path = .error error := by
  rw [CommandLine.loadInput_eq]
  cases h with
  | unreadable fails => simp only [fails]
  | notHex reads is_hex fails => simp only [reads, is_hex, if_true, fails]
  | malformed reads decodes fails => simp only [reads, decodes_iff.mp decodes, fails]

theorem supplies_or_refuses (files : Files) (hex : Bool) (path : String) :
    (∃ bytes, Supplies files hex path bytes) ∨ ∃ error, Refuses files hex path error := by
  cases hread : files path with
  | error cause => exact Or.inr ⟨_, .unreadable hread⟩
  | ok raw =>
      cases hdecode : (if hex then Hex.decode raw else .ok raw) with
      | error cause =>
          cases hex with
          | false => cases hdecode
          | true => exact Or.inr ⟨_, .notHex hread rfl hdecode⟩
      | ok bytes =>
          cases hcheck : WellFormed.check bytes with
          | error cause => exact Or.inr ⟨_, .malformed hread (decodes_iff.mpr hdecode) hcheck⟩
          | ok => exact Or.inl ⟨bytes, raw, hread, decodes_iff.mpr hdecode, hcheck⟩

/-- Of several paths all can be used, or there is a first one that cannot. -/
theorem supplied_or_refused (files : Files) (hex : Bool) (paths : List String) :
    (∀ path ∈ paths, ∃ bytes, Supplies files hex path bytes) ∨
      ∃ earlier path later error, paths = earlier ++ path :: later ∧
        (∀ before ∈ earlier, ∃ bytes, Supplies files hex before bytes) ∧
        Refuses files hex path error := by
  induction paths with
  | nil => exact Or.inl (by simp)
  | cons first rest ih =>
      rcases supplies_or_refuses files hex first with hsupplies | ⟨error, hrefuses⟩
      · rcases ih with hrest | ⟨earlier, path, later, error, rfl, hearlier, hrefuses⟩
        · exact Or.inl (List.forall_mem_cons.mpr ⟨hsupplies, hrest⟩)
        · exact Or.inr ⟨first :: earlier, path, later, error, rfl,
            List.forall_mem_cons.mpr ⟨hsupplies, hearlier⟩, hrefuses⟩
      · exact Or.inr ⟨[], first, rest, error, rfl, by simp, hrefuses⟩

/-! ### Commands -/

variable {command : Command}

/-- A command fails in one place first, or it has all that it needs. -/
theorem firstFailure_or_supplied (environment : Option Bytes) (files : Files) (command : Command) :
    (∃ error, FirstFailure environment files command error) ∨
      ∃ depth, Resolves command.options environment depth ∧
        ∀ path ∈ command.paths, ∃ bytes, Supplies files command.options.hex path bytes := by
  rcases resolves_or_badDepth command.options environment with ⟨depth, hdepth⟩ | ⟨error, hbad⟩
  · rcases supplied_or_refused files command.options.hex command.paths with
      hsupplied | ⟨earlier, path, later, error, hpaths, hearlier, hrefuses⟩
    · exact Or.inr ⟨depth, hdepth, hsupplied⟩
    · exact Or.inl ⟨error, .input hdepth hpaths hearlier hrefuses⟩
  · exact Or.inl ⟨error, .depth hbad⟩

/-- It is never both. -/
theorem not_firstFailure_of_supplied {depth : Nat}
    (hdepth : Resolves command.options environment depth)
    (hsupplied : ∀ path ∈ command.paths, ∃ bytes, Supplies files command.options.hex path bytes) :
    ¬FirstFailure environment files command error := by
  intro hfailure
  cases hfailure with
  | depth bad => cases hdepth.limitsFor_eq.symm.trans bad.limitsFor_eq
  | @input _ earlier later path _ _ paths_eq _ refuses =>
      have hmem : path ∈ command.paths := by
        rw [paths_eq]
        exact List.mem_append_right _ List.mem_cons_self
      obtain ⟨bytes, hbytes⟩ := hsupplied path hmem
      cases hbytes.loadInput_eq.symm.trans refuses.loadInput_eq

theorem mapM_loadInput_of_refuses {earlier : List String} (later : List String)
    (hsupplied : ∀ before ∈ earlier, ∃ bytes, Supplies files hex before bytes)
    (hrefuses : Refuses files hex path error) :
    (earlier ++ path :: later).mapM (loadInput files hex) = .error error := by
  induction earlier with
  | nil => rw [List.nil_append, List.mapM_cons, hrefuses.loadInput_eq, error_bind]
  | cons first earlier ih =>
      obtain ⟨⟨bytes, hbytes⟩, hrest⟩ := List.forall_mem_cons.mp hsupplied
      rw [List.cons_append, List.mapM_cons, hbytes.loadInput_eq, ok_bind, ih hrest, error_bind]

/-- A command of either kind loads its paths in order. -/
theorem prepare_of_mapM_loadInput {limits : Limits}
    (hlimits : limitsFor command.options environment = .ok limits)
    (hload : command.paths.mapM (loadInput files command.options.hex) = .error error) :
    prepare environment files command = .error error := by
  cases command with
  | compare left right options =>
      have hlimits : limitsFor options environment = .ok limits := hlimits
      simp only [Command.paths, Command.options, List.mapM_cons] at hload
      rw [prepare, hlimits, ok_bind]
      cases hleft : loadInput files options.hex left with
      | error cause =>
          rw [hleft] at hload
          cases hload
          rfl
      | ok bytes =>
          cases hright : loadInput files options.hex right with
          | error cause =>
              rw [hleft, hright] at hload
              cases hload
              rfl
          | ok bytes' =>
              rw [hleft, hright] at hload
              cases hload
  | dump input options =>
      have hlimits : limitsFor options environment = .ok limits := hlimits
      simp only [Command.paths, Command.options, List.mapM_cons] at hload
      rw [prepare, hlimits, ok_bind]
      cases hinput : loadInput files options.hex input with
      | error cause =>
          rw [hinput] at hload
          cases hload
          rfl
      | ok bytes =>
          rw [hinput] at hload
          cases hload

theorem prepare_of_limitsFor (hlimits : limitsFor command.options environment = .error error) :
    prepare environment files command = .error error := by
  cases command with
  | compare left right options =>
      have hlimits : limitsFor options environment = .error error := hlimits
      rw [prepare, hlimits, error_bind]
  | dump input options =>
      have hlimits : limitsFor options environment = .error error := hlimits
      rw [prepare, hlimits, error_bind]

/-- The first failure is the one that ends the preparation. -/
theorem FirstFailure.prepare_eq (h : FirstFailure environment files command error) :
    prepare environment files command = .error error := by
  cases h with
  | depth bad => exact prepare_of_limitsFor bad.limitsFor_eq
  | @input _ _ later _ _ resolves paths_eq supplied refuses =>
      apply prepare_of_mapM_loadInput resolves.limitsFor_eq
      rw [paths_eq]
      exact mapM_loadInput_of_refuses later supplied refuses

/-! ### Ceilings -/

theorem options_of_addPath {shape : Shape} {given after : Given} {path : String}
    (h : addPath shape given path = .ok after) : after.options = given.options := by
  rw [addPath] at h
  split_ifs at h
  cases h
  rfl

theorem options_of_addPaths {shape : Shape} {given after : Given} {paths : List String}
    (h : paths.foldlM (addPath shape) given = .ok after) : after.options = given.options := by
  induction paths generalizing given with
  | nil =>
      cases h
      rfl
  | cons path paths ih =>
      rw [List.foldlM_cons] at h
      obtain ⟨middle, hpath, hrest⟩ := bind_eq_ok.mp h
      rw [ih hrest, options_of_addPath hpath]

theorem arenaBytes_of_setHex {given after : Given} (h : setHex given = .ok after) :
    after.options.arenaBytes = given.options.arenaBytes := by
  rw [setHex] at h
  split_ifs at h
  cases h
  rfl

theorem arenaBytes_of_addSetting {given after : Given} {text : String}
    (h : addSetting given .maxDepth text = .ok after) :
    after.options.arenaBytes = given.options.arenaBytes := by
  rw [addSetting] at h
  split_ifs at h
  split at h
  · next options hset =>
      cases h
      obtain ⟨depth, _, hdepth⟩ := bind_eq_ok.mp hset
      cases hdepth
      rfl
  · cases h

/-- Where no ceiling is taken, an option is none or one for the depth. -/
theorem setting_eq_of_read {text : List Char} {shape : Shape} (hshape : shape.ceiling = false)
    {setting : Setting} {value : Option String}
    (h : LongOption.read shape text = .setting setting value) : setting = .maxDepth := by
  simp only [LongOption.read, hshape] at h
  split at h
  case h_3 =>
    cases h
    rfl
  all_goals cases h

theorem arenaBytes_of_readGiven {shape : Shape} (hshape : shape.ceiling = false)
    {given after : Given} {args : List String} (h : readGiven shape given args = .ok after) :
    after.options.arenaBytes = given.options.arenaBytes := by
  fun_induction readGiven shape given args with
  | case1 =>
      cases h
      rfl
  | case2 => rw [options_of_addPaths h]
  | case4 given _ _ _ _ rest _ ih =>
      obtain ⟨middle, hhex, hrest⟩ := bind_eq_ok.mp h
      rw [ih middle hrest, arenaBytes_of_setHex hhex]
  | case5 given _ _ _ _ setting value rest hread ih =>
      obtain ⟨middle, hsetting, hrest⟩ := bind_eq_ok.mp h
      cases setting_eq_of_read hshape hread
      rw [ih middle hrest, arenaBytes_of_addSetting hsetting]
  | case7 given _ _ _ _ setting value rest hread _ ih =>
      obtain ⟨middle, hsetting, hrest⟩ := bind_eq_ok.mp h
      cases setting_eq_of_read hshape hread
      rw [ih middle hrest, arenaBytes_of_addSetting hsetting]
  | case12 given _ rest _ _ _ _ ih =>
      obtain ⟨middle, hpath, hrest⟩ := bind_eq_ok.mp h
      rw [ih middle hrest, options_of_addPath hpath]
  | case3 | case6 | case8 | case9 | case10 | case11 => cases h

/-- A dump has no ceiling. -/
theorem arenaBytes_of_dump {args : List String} {input : String} {options : Options}
    (h : readCommand args = .ok (.dump input options)) : options.arenaBytes = none := by
  unfold readCommand at h
  split at h
  case h_2 =>
    obtain ⟨given, _, hpaths⟩ := bind_eq_ok.mp h
    split at hpaths <;> cases hpaths
  case h_3 =>
    obtain ⟨given, hgiven, hpaths⟩ := bind_eq_ok.mp h
    split at hpaths
    · cases hpaths
      exact arenaBytes_of_readGiven rfl hgiven
    · cases hpaths
  case h_5 =>
    split at h
    · cases h
    · split_ifs at h
  all_goals cases h

end UnknownFields.CommandLine
