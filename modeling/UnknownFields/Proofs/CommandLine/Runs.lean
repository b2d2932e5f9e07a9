import UnknownFields.Proofs.Build.Safety
import UnknownFields.Proofs.Build.Trust
import UnknownFields.Proofs.CommandLine.Complaints
import UnknownFields.Proofs.CommandLine.Inputs
import UnknownFields.Proofs.JsonGrammar
import UnknownFields.Proofs.Reports

/-!
What a run of the program comes to, for whatever command, environment and files. It always answers,
and both modes give the same answer: everything that is built has been checked before. It complains
of the first thing that is wrong, and if nothing is, it reports the verdict of the comparison or the
tree of the input, unless the tree runs into a limit. What it writes is described as a reader finds
it: a complaint by its words, a report by the members of the document whose text it is.
-/

namespace UnknownFields

open Workspace

/-! ### Both modes on inputs that are in order -/

theorem FieldTree.parse_strict_of_check {input : Bytes} (h : WellFormed.check input = .ok ())
    (limits : Limits) : parse .strict limits input = parse .lenient limits input := by
  obtain ⟨fields, hencodes⟩ := WellFormed.encodes_of_check h
  rw [parse, parse, Build.build_strict_of_encodes hencodes (sound_ofLimits limits)]

theorem Comparison.buildBoth_strict_of_check {left right : Bytes}
    (hleft : WellFormed.check left = .ok ()) (hright : WellFormed.check right = .ok ())
    (limits : Limits) :
    buildBoth .strict left right (.ofLimits limits) =
      buildBoth .lenient left right (.ofLimits limits) := by
  obtain ⟨fields, hencodes⟩ := WellFormed.encodes_of_check hleft
  obtain ⟨others, hencodes'⟩ := WellFormed.encodes_of_check hright
  have hfirst := Build.build_strict_of_encodes hencodes (sound_ofLimits limits)
  rw [buildBoth, buildBoth]
  cases hbuild : Workspace.build .lenient left (.ofLimits limits) with
  | error failure middle =>
      rw [hbuild] at hfirst
      rw [Build.bind_of_error hfirst, Build.bind_of_error hbuild]
  | ok built middle =>
      rw [hbuild] at hfirst
      have hsound : middle.Sound := (Reachable.fresh.built hbuild).sound
      rw [Build.bind_of_ok hfirst, Build.bind_of_ok hbuild]
      simp only [bind, EStateM.bind, Build.build_strict_of_encodes hencodes' hsound]

theorem compareInputs_strict_of_check {left right : Bytes}
    (hleft : WellFormed.check left = .ok ()) (hright : WellFormed.check right = .ok ())
    (limits : Limits) :
    compareInputs .strict limits left right = compareInputs .lenient limits left right := by
  rw [compareInputs, compareInputs, Comparison.buildBoth_strict_of_check hleft hright]

/-- Inputs that are in order compare, and both modes come to the same verdict. -/
theorem exists_verdict_of_check {left right : Bytes} (hleft : WellFormed.check left = .ok ())
    (hright : WellFormed.check right = .ok ()) (limits : Limits) :
    ∃ verdict, ∀ mode, compareInputs mode limits left right = .ok verdict := by
  obtain ⟨verdict, hverdict⟩ := compareInputs_lenient limits left right
  refine ⟨verdict, fun mode => ?_⟩
  cases mode with
  | lenient => exact hverdict
  | strict => exact (compareInputs_strict_of_check hleft hright limits).trans hverdict

namespace CommandLine

/-- A run that answers so ends with this status, and this is all that it writes. -/
structure Response.Gives (response : Response) (status : Nat) (output complaint : String) :
    Prop where
  status_eq : response.status = status
  output_eq : ∀ helpText, response.output helpText = output
  errorOutput_eq : ∀ usageText, response.errorOutput usageText = complaint

/-- The run ends with this status, and it prints one text of the document and nothing else. -/
structure Response.Prints (response : Response) (status : Nat) (document : Json) : Prop where
  written : document.Written (document.render .pretty).toList
  gives : response.Gives status (document.render .pretty ++ "\n") ""

theorem prints_report (document : Json) (status : Nat) :
    (Response.report document status).Prints status document :=
  ⟨Json.written_render .pretty document, rfl, fun _ => rfl, fun _ => rfl⟩

/-- What a command that has all it needs is answered. -/
inductive Answers (files : Files) (depth : Nat) : Command → Response → Prop where
  | compared {left right : String} {options : Options} {leftBytes rightBytes : Bytes}
      {verdict : Verdict} {document : Json} {response : Response}
      (left_supplied : Supplies files options.hex left leftBytes)
      (right_supplied : Supplies files options.hex right rightBytes)
      (verdict_eq : ∀ mode,
        compareInputs mode ⟨depth, options.arenaBytes⟩ leftBytes rightBytes = .ok verdict)
      (compares : Report.Compares verdict ⟨depth, options.arenaBytes⟩
        [(left, leftBytes), (right, rightBytes)] document)
      (prints : response.Prints
        (match verdict with
          | .equal => 0
          | .notEqual => 1
          | .limit _ => 2) document) :
      Answers files depth (.compare left right options) response
  | listed {input : String} {options : Options} {bytes : Bytes} {tree : FieldTree}
      {fields : List (Node Unit)} {nodes : List (Node Nat)} {document : Json} {response : Response}
      (supplied : Supplies files options.hex input bytes)
      (parse_eq : ∀ mode, FieldTree.parse mode { maxDepth := depth } bytes = .ok tree)
      (nodes_eq : tree.nodes = .ok nodes) (encodes : Encodes bytes fields)
      (canonical : nodes.map Node.erase = canonicalFields fields)
      (dumps : Report.Dumps input bytes nodes document) (prints : response.Prints 0 document) :
      Answers files depth (.dump input options) response
  | limited {input reason : String} {options : Options} {bytes : Bytes} {error : LimitError}
      {response : Response} (supplied : Supplies files options.hex input bytes)
      (parse_eq : ∀ mode,
        FieldTree.parse mode { maxDepth := depth } bytes = .error (.limit error))
      (told : error.Told reason) (gives : response.Gives 2 "" (input ++ ": " ++ reason ++ "\n")) :
      Answers files depth (.dump input options) response

variable {environment : Option Bytes} {files : Files} {depth : Nat}

theorem run_of_readCommand {args : List String} {command : Command}
    (h : readCommand args = .ok command) (mode : Mode) (environment : Option Bytes) (files : Files) :
    run mode args environment files = runCommand mode environment files command := by
  rw [run, h]

/-- A first failure is complained of, and nothing is reported. -/
theorem FirstFailure.gives {command : Command} {error : RunError} {mode : Mode} {response : Response}
    (h : FirstFailure environment files command error)
    (hrun : runCommand mode environment files command = .ok response) :
    ∃ line, error.Complains line ∧ response.Gives 3 "" (line ++ "\n") := by
  rw [runCommand, h.prepare_eq] at hrun
  cases hrun
  exact ⟨error.message, error.complains_message, rfl, fun _ => rfl, fun _ => rfl⟩

/-- A comparison whose inputs are in order is reported. -/
theorem answers_compare {left right : String} {options : Options}
    (hdepth : Resolves options environment depth)
    (hleft : ∃ bytes, Supplies files options.hex left bytes)
    (hright : ∃ bytes, Supplies files options.hex right bytes) :
    ∃ response, (∀ mode, runCommand mode environment files (.compare left right options) =
        .ok response) ∧
      Answers files depth (.compare left right options) response := by
  obtain ⟨leftBytes, hleft⟩ := hleft
  obtain ⟨rightBytes, hright⟩ := hright
  obtain ⟨_, _, _, hcheck⟩ := id hleft
  obtain ⟨_, _, _, hcheck'⟩ := id hright
  obtain ⟨verdict, hverdict⟩ := exists_verdict_of_check hcheck hcheck' ⟨depth, options.arenaBytes⟩
  have hprepare : prepare environment files (.compare left right options) =
      .ok (.compare ⟨depth, options.arenaBytes⟩ (left, leftBytes) (right, rightBytes)) := by
    simp only [prepare, hdepth.limitsFor_eq, hleft.loadInput_eq, hright.loadInput_eq, ok_bind,
      pure_eq_ok]
  have hcompares := Report.compares_comparison verdict ⟨depth, options.arenaBytes⟩
    [(left, leftBytes), (right, rightBytes)]
  refine ⟨.report (Report.comparison verdict ⟨depth, options.arenaBytes⟩
    [describe left leftBytes, describe right rightBytes]) (Status.ofVerdict verdict), fun mode => ?_,
    .compared hleft hright hverdict hcompares ?_⟩
  · simp only [runCommand, hprepare, Job.run, runCompare, hverdict, ok_bind, pure_eq_ok]
  · cases verdict <;> exact prints_report _ _

/-- A dump whose input is in order lists its fields or runs into a limit. -/
theorem answers_dump {input : String} {options : Options} (hdepth : Resolves options environment depth)
    (hsupplied : ∃ bytes, Supplies files options.hex input bytes)
    (hceiling : options.arenaBytes = none) :
    ∃ response, (∀ mode, runCommand mode environment files (.dump input options) = .ok response) ∧
      Answers files depth (.dump input options) response := by
  obtain ⟨bytes, hsupplied⟩ := hsupplied
  obtain ⟨_, _, _, hcheck⟩ := id hsupplied
  have hmodes : ∀ mode, FieldTree.parse mode { maxDepth := depth } bytes =
      FieldTree.parse .lenient { maxDepth := depth } bytes := by
    intro mode
    cases mode with
    | lenient => rfl
    | strict => exact FieldTree.parse_strict_of_check hcheck _
  have hprepare : prepare environment files (.dump input options) =
      .ok (.dump { maxDepth := depth } (input, bytes)) := by
    simp only [prepare, hdepth.limitsFor_eq, hceiling, hsupplied.loadInput_eq, ok_bind, pure_eq_ok]
  obtain ⟨fields, hencodes⟩ := WellFormed.encodes_of_check hcheck
  rcases FieldTree.parse_lenient { maxDepth := depth } bytes with
    ⟨tree, _, hparse, _⟩ | ⟨error, hparse⟩
  · obtain ⟨nodes, hnodes, hcanonical⟩ := FieldTree.nodes_of_encodes hencodes hparse
    refine ⟨.report (Report.dump (describe input bytes) nodes) Status.success, fun mode => ?_,
      .listed hsupplied (fun mode => (hmodes mode).trans hparse) hnodes hencodes hcanonical
        (Report.dumps_dump input bytes nodes) (prints_report _ _)⟩
    simp only [runCommand, hprepare, Job.run, runDump, hmodes mode, hparse, hnodes, ok_bind,
      pure_eq_ok]
  · refine ⟨.complaint (input ++ ": " ++ error.message) Status.limit, fun mode => ?_,
      .limited hsupplied (fun mode => (hmodes mode).trans hparse) error.told_message
        ⟨rfl, fun _ => rfl, fun _ => rfl⟩⟩
    simp only [runCommand, hprepare, Job.run, runDump, hmodes mode, hparse]

/-- **What a run comes to.** Take arguments that are read as a command, any environment and any files.
The run answers, and in both modes alike. If the depth is not to be had, or an input cannot be read,
decoded or accepted, it ends with status 3, prints nothing and complains of the first of these
failures in its words. Otherwise a comparison prints one report, with the word for the verdict, the
limits and a summary of each input, and ends with 0, 1 or 2 as its verdict says; a dump prints the
canonical fields of the tree, each with its number, its tag and its payload, and ends with 0, or where
the tree runs into a limit it prints nothing, names the limit and ends with 2. -/
theorem run_of_command {args : List String} {command : Command}
    (h : readCommand args = .ok command) (environment : Option Bytes) (files : Files) :
    ∃ response, (∀ mode, run mode args environment files = .ok response) ∧
      (∀ error, FirstFailure environment files command error →
        ∃ line, error.Complains line ∧ response.Gives 3 "" (line ++ "\n")) ∧
      ((∀ error, ¬FirstFailure environment files command error) →
        ∃ depth, Resolves command.options environment depth ∧
          Answers files depth command response) := by
  simp only [run_of_readCommand h]
  rcases firstFailure_or_supplied environment files command with
    ⟨error, hfailure⟩ | ⟨depth, hdepth, hsupplied⟩
  · have hresponse : ∀ mode, runCommand mode environment files command =
        .ok (.complaint error.message Status.unusable) := by
      intro mode
      rw [runCommand, hfailure.prepare_eq]
    exact ⟨_, hresponse, fun _ hother => hother.gives (hresponse .lenient),
      fun hnone => absurd hfailure (hnone error)⟩
  · have hanswers : ∃ response, (∀ mode, runCommand mode environment files command = .ok response) ∧
        Answers files depth command response := by
      cases command with
      | compare left right options =>
          exact answers_compare hdepth (hsupplied left (by simp [Command.paths]))
            (hsupplied right (by simp [Command.paths]))
      | dump input options =>
          exact answers_dump hdepth (hsupplied input (by simp [Command.paths])) (arenaBytes_of_dump h)
    obtain ⟨response, hresponse, hanswer⟩ := hanswers
    exact ⟨response, hresponse, fun _ hfailure => hfailure.gives (hresponse .lenient),
      fun _ => ⟨depth, hdepth, hanswer⟩⟩

set_option maxRecDepth 2000 in
/-- Two files with the same fields in two orders, and next to them one with a payload that is cut
off. The first two are equal, a dump of the second lists the smaller field first, and the third is
complained of. -/
theorem run_of_command_three_files :
    ∃ files : Files, files "a" = .ok [0x08, 0x05, 0x10, 0x09] ∧
      files "b" = .ok [0x10, 0x09, 0x08, 0x05] ∧ files "c" = .ok [0x12, 0x05, 0x01] ∧
      (∃ response document, (∀ mode, run mode ["compare", "a", "b", "--max-depth=7"] none files =
          .ok response) ∧
        response.Prints 0 document ∧
        document.keys = ["schema_version", "result", "equal", "max_depth", "inputs"] ∧
        document.member? "result" = some (.text "equal") ∧
        document.member? "equal" = some (.bool true) ∧
        document.member? "max_depth" = some (.number 7)) ∧
      (∃ response document, (∀ mode, run mode ["dump", "b"] none files = .ok response) ∧
        response.Prints 0 document ∧
        document.member? "fields" = some (.list [
          .object [("field", .number 1), ("wire_type", .text "varint"), ("tag", .number 8),
            ("value", .object [("varint", .number 5)])],
          .object [("field", .number 2), ("wire_type", .text "varint"), ("tag", .number 16),
            ("value", .object [("varint", .number 9)])]]) ∧
        ∃ summary digits, document.member? "input" = some summary ∧
          summary.member? "len" = some (.number 4) ∧
          summary.member? "sha256" = some (.text digits) ∧
          Hex.Prints digits [
            0xff, 0x21, 0x22, 0x58, 0x00, 0xad, 0x60, 0x57, 0x59, 0x45, 0x67, 0xec, 0x15, 0xf3,
            0xaf, 0x26, 0x1d, 0xc8, 0xdd, 0x7d, 0x4b, 0xf5, 0xde, 0x74, 0xf3, 0xb3, 0xf2, 0x5c,
            0xba, 0x8f, 0xcc, 0xc7]) ∧
      ∃ response, (∀ mode, run mode ["compare", "a", "c"] none files = .ok response) ∧
        response.Gives 3 ""
          "invalid input: c: malformed unknown fields at byte 0: payload runs past end of input\n" := by
  obtain ⟨files, hfirst, hsecond, hthird⟩ : ∃ files : Files,
      files "a" = .ok [0x08, 0x05, 0x10, 0x09] ∧ files "b" = .ok [0x10, 0x09, 0x08, 0x05] ∧
        files "c" = .ok [0x12, 0x05, 0x01] :=
    ⟨fun path => if path = "a" then .ok [0x08, 0x05, 0x10, 0x09]
      else if path = "b" then .ok [0x10, 0x09, 0x08, 0x05] else .ok [0x12, 0x05, 0x01],
      rfl, rfl, rfl⟩
  have hsupplied : Supplies files false "a" [0x08, 0x05, 0x10, 0x09] := ⟨_, hfirst, rfl, by cbv⟩
  have hsupplied' : Supplies files false "b" [0x10, 0x09, 0x08, 0x05] := ⟨_, hsecond, rfl, by cbv⟩
  have hrefused : Refuses files false "c" (.malformed "c" ⟨0, .truncatedPayload⟩) :=
    .malformed hthird rfl (by cbv)
  refine ⟨files, hfirst, hsecond, hthird, ?_, ?_, ?_⟩
  · have hread : readCommand ["compare", "a", "b", "--max-depth=7"] =
        .ok (.compare "a" "b" { maxDepth := some 7 }) := by cbv
    have hseven : Resolves { maxDepth := some 7 } none 7 := .option rfl
    have hverdict : compareInputs .lenient ⟨7, none⟩ [0x08, 0x05, 0x10, 0x09]
        [0x10, 0x09, 0x08, 0x05] = .ok .equal := by cbv
    have hnone : ∀ error, ¬FirstFailure none files (.compare "a" "b" { maxDepth := some 7 }) error :=
      fun _ => not_firstFailure_of_supplied hseven
        (by simpa [Command.paths] using ⟨⟨_, hsupplied⟩, ⟨_, hsupplied'⟩⟩)
    obtain ⟨response, hresponse, _, hanswers⟩ := run_of_command hread none files
    obtain ⟨depth, hdepth, hanswer⟩ := hanswers hnone
    cases hdepth.limitsFor_eq.symm.trans hseven.limitsFor_eq
    cases hanswer with
    | @compared _ _ _ _ _ _ document _ hleft hright hequal hcompares hprints =>
        cases hleft.loadInput_eq.symm.trans hsupplied.loadInput_eq
        cases hright.loadInput_eq.symm.trans hsupplied'.loadInput_eq
        cases (hequal .lenient).symm.trans hverdict
        obtain ⟨_, hword, ⟨⟩⟩ := hcompares.result_eq
        exact ⟨response, document, hresponse, hprints, hcompares.keys_eq, hword,
          hcompares.equal_eq, hcompares.maxDepth_eq⟩
  · have hread : readCommand ["dump", "b"] = .ok (.dump "b" {}) := by cbv
    have husual : Resolves {} none defaultMaxDepth := .usual rfl rfl
    obtain ⟨tree, hparse, hnodes⟩ : ∃ tree : FieldTree,
        FieldTree.parse .lenient {} [0x10, 0x09, 0x08, 0x05] = .ok tree ∧
          tree.nodes = .ok [.leaf ⟨8⟩ (.varint 5), .leaf ⟨16⟩ (.varint 9)] :=
      ⟨⟨⟨#[.varint 8 5, .varint 16 9, .vacant, .vacant], #[⟨0, 2, 4⟩], 152⟩, 0⟩, by cbv, by cbv⟩
    have hdigest : Sha256.digest [0x10, 0x09, 0x08, 0x05] = [
        0xff, 0x21, 0x22, 0x58, 0x00, 0xad, 0x60, 0x57, 0x59, 0x45, 0x67, 0xec, 0x15, 0xf3, 0xaf,
        0x26, 0x1d, 0xc8, 0xdd, 0x7d, 0x4b, 0xf5, 0xde, 0x74, 0xf3, 0xb3, 0xf2, 0x5c, 0xba, 0x8f,
        0xcc, 0xc7] := by
      decide +kernel
    have hnone : ∀ error, ¬FirstFailure none files (.dump "b" {}) error :=
      fun _ => not_firstFailure_of_supplied husual
        (by simpa [Command.paths] using ⟨_, hsupplied'⟩)
    obtain ⟨response, hresponse, _, hanswers⟩ := run_of_command hread none files
    obtain ⟨depth, hdepth, hanswer⟩ := hanswers hnone
    cases hdepth.limitsFor_eq.symm.trans husual.limitsFor_eq
    cases hanswer with
    | @listed _ _ _ _ _ _ document _ hinput hfound hlisted _ _ hdumps hprints =>
        cases hinput.loadInput_eq.symm.trans hsupplied'.loadInput_eq
        cases (hfound .lenient).symm.trans hparse
        cases hlisted.symm.trans hnodes
        -- Two fields, and a number in each of them.
        obtain ⟨_, hitems, _ | ⟨⟨⟨⟩⟩, _ | ⟨⟨⟨⟩⟩, ⟨⟩⟩⟩⟩ := hdumps.fields_eq
        obtain ⟨summary, hsummary, hsummarizes⟩ := hdumps.input_eq
        obtain ⟨digits, hdigits, hdigest'⟩ := hsummarizes.sha256_eq
        rw [hdigest] at hdigest'
        exact ⟨response, document, hresponse, hprints, hitems, summary, digits, hsummary,
          hsummarizes.len_eq, hdigits, hdigest'⟩
    | limited hinput hfound =>
        cases hinput.loadInput_eq.symm.trans hsupplied'.loadInput_eq
        cases (hfound .lenient).symm.trans hparse
  · have hread : readCommand ["compare", "a", "c"] = .ok (.compare "a" "c" {}) := by cbv
    obtain ⟨response, hresponse, hfails, _⟩ := run_of_command hread none files
    have hfailure : FirstFailure none files (.compare "a" "c" {})
        (.malformed "c" ⟨0, .truncatedPayload⟩) := by
      refine .input (.usual rfl rfl) (show ["a", "c"] = ["a"] ++ "c" :: [] from rfl) ?_ hrefused
      exact List.forall_mem_singleton.mpr ⟨_, hsupplied⟩
    obtain ⟨line, hcomplains, hgives⟩ := hfails _ hfailure
    cases hcomplains with
    | malformed told =>
        cases told
        exact ⟨response, hresponse, hgives⟩

end CommandLine

end UnknownFields
