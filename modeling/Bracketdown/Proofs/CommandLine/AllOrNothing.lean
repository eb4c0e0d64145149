import Bracketdown.CommandLine.World
import Bracketdown.Proofs.CommandLine.Disk
import Bracketdown.Proofs.Text.Utf8

/-!
# All or nothing

A run of a command whose input is of no use has printed nothing and changed no file, and one that
succeeds has done all it was asked for (`run_allOrNothing`). For both commands the reason is the
same: what may be wrong with the input is found first and leaves no trace (`outcome_document`), and
what is done with the result is one thing (`Handed`): a file is written as a whole or not at all, or
the result is printed. So the run of a command ends in one of five ways (`Ends`), and all the rest
is read off them. Only one of the five leaves anything by halves: when the standard output does not
take the whole result.

The result is made from what the input was when it was read. That is before anything is written, so
the output may be the same file.

None of this depends on how documents are read (`allOrNothing_of_run`). The program's own reader
fails for an input that is no text, or no stored tree (`document_eq_error_iff`).
-/

namespace Bracketdown.CommandLine

/-! ## The parts of a command -/

theorem Format.read_eq_error_iff {format : Format} {options : Markdown.Options}
    {bytes : List UInt8} {failure : Failure} :
    Format.read options bytes format = .error failure
      ↔ (format = .markdown ∧ ∃ fault, Utf8.decode bytes = .error fault
            ∧ failure = .encoding ⟨fault⟩)
        ∨ (format = .tree ∧ ∃ error, Node.decodeBytes bytes = .error error
            ∧ failure = .tree error) := by
  cases format with
  | markdown =>
    show (Markdown.parseBytes options bytes).mapError Failure.encoding = _ ↔ _
    unfold Markdown.parseBytes
    cases Utf8.decode bytes with
    | error fault =>
      show Except.error (Failure.encoding ⟨fault⟩) = _ ↔ _
      simp [eq_comm]
    | ok source =>
      show Except.ok _ = _ ↔ _
      simp
  | tree =>
    show (Node.decodeBytes bytes).mapError Failure.tree = _ ↔ _
    cases Node.decodeBytes bytes with
    | error error =>
      show Except.error (Failure.tree error) = _ ↔ _
      simp [eq_comm]
    | ok tree =>
      show Except.ok tree = _ ↔ _
      simp

namespace Command

/-- The format of the input. -/
def format : Command → Format
  | .convert input _ format _ => format.getD (.ofPath input)
  | .tree _ _ => .markdown

/-- The options that the input is read with. -/
def options : Command → Markdown.Options
  | .convert _ _ _ options => options
  | .tree _ options => options

/-- The text that is made of a tree. -/
def text : Command → Node → String
  | .convert _ _ _ _ => Markup.render
  | .tree _ _ => fun tree => tree.encodePretty ++ "\n"

theorem result_eq (command : Command) (bytes : List UInt8) :
    command.result bytes
      = (Format.read command.options bytes command.format).map command.text := by
  cases command with
  | convert input output format options =>
    dsimp only [result, Command.format]
    cases format.getD (.ofPath input) <;> rfl
  | tree input options => rfl

end Command

theorem bytesOf_append (first second : String) :
    bytesOf (first ++ second) = bytesOf first ++ bytesOf second := by
  rw [Utf8.bytesOf_eq, Utf8.bytesOf_eq, Utf8.bytesOf_eq, String.toList_append, List.flatMap_append]

namespace World

variable {Place : Type}

/-! ## Steps -/

/-- A part of the program, in a world. -/
abbrev Part (Place α : Type) := ExceptT Failure (StateM (World Place)) α

variable {α β : Type}

/-- What comes of a part of the program, and the world after it. -/
def outcome (part : Part Place α) (world : World Place) : Except Failure α × World Place :=
  part.run.run world

theorem outcome_bind (part : Part Place α) (rest : α → Part Place β) (world : World Place) :
    outcome (part >>= rest) world
      = match outcome part world with
        | (.ok a, after) => outcome (rest a) after
        | (.error failure, after) => (.error failure, after) := by
  unfold outcome
  rw [ExceptT.run_bind, StateT.run_bind]
  show StateT.run _ (part.run.run world).2 = _
  rcases part.run.run world with ⟨_ | _, _⟩ <;> rfl

theorem outcome_lift (found : Except Failure α) (world : World Place) :
    outcome (liftM found) world = (found, world) := rfl

theorem outcome_attempt (failure : FileFault → Failure)
    (action : StateM (World Place) (Except FileFault α)) (world : World Place) :
    outcome (System.attempt failure action) world
      = ((action.run world).1.mapError failure, (action.run world).2) := rfl

/-! ## Room on the standard output -/

/-- Whether the standard output takes so many bytes more. -/
def Takes (world : World Place) (bytes : List UInt8) : Prop :=
  ∀ limit fault, world.limit? = some (limit, fault) →
    world.printed.length + bytes.length ≤ limit

theorem overflow?_eq_none_iff {world : World Place} {bytes : List UInt8} :
    world.overflow? bytes = none ↔ world.Takes bytes := by
  unfold overflow? Takes
  cases world.limit? with
  | none => simp
  | some stop =>
    obtain ⟨limit, fault⟩ := stop
    by_cases hlimit : limit < world.printed.length + bytes.length
    · simp [hlimit]
    · simp [hlimit, Nat.le_of_not_lt hlimit]

theorem add_add (world : World Place) (first second : List UInt8) :
    (world.add first).add second = world.add (first ++ second) := by
  rw [add, add, add, List.append_assoc]

/-- Two texts are taken one after the other as they would be taken together. -/
theorem takes_append {world : World Place} {first second : List UInt8} :
    world.Takes (first ++ second) ↔ world.Takes first ∧ (world.add first).Takes second := by
  unfold Takes
  constructor
  · intro h
    refine ⟨fun limit fault hlimit => ?_, fun limit fault hlimit => ?_⟩
    · have hle := h limit fault hlimit
      rw [List.length_append] at hle
      omega
    · have hle := h limit fault hlimit
      rw [List.length_append] at hle
      rw [add, List.length_append]
      omega
  · rintro ⟨-, h⟩ limit fault hlimit
    have hle := h limit fault hlimit
    rw [add, List.length_append] at hle
    rw [List.length_append]
    omega

/-! ## What is left alone -/

/-- The world after an input is read. -/
def behind (world : World Place) (input : String) : World Place :=
  if input = standard then { world with stdin := .ok [] } else world

@[simp] theorem behind_files (world : World Place) (input : String) :
    (world.behind input).files = world.files := by
  unfold behind
  split <;> rfl

@[simp] theorem behind_printed (world : World Place) (input : String) :
    (world.behind input).printed = world.printed := by
  unfold behind
  split <;> rfl

@[simp] theorem behind_reported (world : World Place) (input : String) :
    (world.behind input).reported = world.reported := by
  unfold behind
  split <;> rfl

@[simp] theorem behind_resolve (world : World Place) (input : String) :
    (world.behind input).resolve = world.resolve := by
  unfold behind
  split <;> rfl

@[simp] theorem takes_behind {world : World Place} {input : String} {bytes : List UInt8} :
    (world.behind input).Takes bytes ↔ world.Takes bytes := by
  unfold behind
  split <;> rfl

/-- The world after a failure is reported. -/
def failing (world : World Place) (failure : Failure) : World Place :=
  { world with reported := world.reported ++ (failure.message ++ "\n") }

/-- A run left nothing behind on the standard output and in the files. -/
structure Untouched (before after : World Place) : Prop where
  printed_eq : after.printed = before.printed
  files_eq : after.files = before.files

theorem untouched_failing (before : World Place) (input : String) (failure : Failure) :
    Untouched before ((before.behind input).failing failure) :=
  ⟨behind_printed before input, behind_files before input⟩

theorem printed_add (before : World Place) (input : String) (bytes : List UInt8) :
    ((before.behind input).add bytes).printed = before.printed ++ bytes := by
  rw [add, behind_printed]

/-! ## Input -/

variable [DecidableEq Place]

/-- The content of an input. -/
def content (world : World Place) (input : String) : Except FileFault (List UInt8) :=
  if input = standard then world.stdin else world.readFile input

/-- The tree that a command finds in its input. -/
def document (world : World Place) (reader : Reader) (command : Command) : Except Failure Node :=
  (world.content command.input).mapError .file >>= fun bytes =>
    reader command.options bytes command.format

/-- Why a command has no use for its input: it cannot be read, it should be text and is not, or it
should be a stored tree and is not. -/
inductive Unfit (world : World Place) (command : Command) : Failure → Prop where
  | unreadable {fault : FileFault} (h : world.content command.input = .error fault) :
    Unfit world command (.file fault)
  | notText {bytes : List UInt8} {fault : Utf8.Fault}
    (hread : world.content command.input = .ok bytes) (hformat : command.format = .markdown)
    (h : Utf8.decode bytes = .error fault) : Unfit world command (.encoding ⟨fault⟩)
  | notTree {bytes : List UInt8} {error : DecodeError}
    (hread : world.content command.input = .ok bytes) (hformat : command.format = .tree)
    (h : Node.decodeBytes bytes = .error error) : Unfit world command (.tree error)

variable {world : World Place} {reader : Reader} {command : Command}

theorem document_of_unreadable {fault : FileFault}
    (h : world.content command.input = .error fault) :
    world.document reader command = .error (.file fault) := by
  rw [document, h]
  rfl

theorem document_of_read {bytes : List UInt8} (h : world.content command.input = .ok bytes) :
    world.document reader command = reader command.options bytes command.format := by
  rw [document, h]
  rfl

/-- These are all the reasons for which the program finds no tree. -/
theorem document_eq_error_iff {failure : Failure} :
    world.document Format.read command = .error failure ↔ world.Unfit command failure := by
  constructor
  · intro h
    cases hread : world.content command.input with
    | error fault =>
      rw [document_of_unreadable hread] at h
      cases h
      exact .unreadable hread
    | ok bytes =>
      rw [document_of_read hread, Format.read_eq_error_iff] at h
      obtain ⟨hformat, fault, htext, rfl⟩ | ⟨hformat, error, htree, rfl⟩ := h
      · exact .notText hread hformat htext
      · exact .notTree hread hformat htree
  · intro h
    cases h with
    | unreadable hread => exact document_of_unreadable hread
    | notText hread hformat htext =>
      rw [document_of_read hread, Format.read_eq_error_iff]
      exact .inl ⟨hformat, _, htext, rfl⟩
    | notTree hread hformat htree =>
      rw [document_of_read hread, Format.read_eq_error_iff]
      exact .inr ⟨hformat, _, htree, rfl⟩

/-- What the program makes of its tree is the result of the command. -/
theorem map_text_document (world : World Place) (command : Command) :
    (world.document Format.read command).map command.text
      = (world.content command.input).mapError .file >>= fun bytes => command.result bytes := by
  unfold document
  cases world.content command.input with
  | error fault => rfl
  | ok bytes => exact (command.result_eq bytes).symm

theorem outcome_readInput (world : World Place) (input : String) :
    outcome (system.readInput input) world
      = ((world.content input).mapError .file, world.behind input) := by
  unfold System.readInput content behind
  split <;> rfl

/-- **What may be wrong with the input comes first.** To find its tree is to read it, and nothing
else. -/
theorem outcome_document (reader : Reader) (command : Command)
    (rest : Node → Part Place β) (world : World Place) :
    outcome (do
        let bytes ← system.readInput command.input
        let tree ← reader command.options bytes command.format
        rest tree) world
      = match world.document reader command with
        | .ok tree => outcome (rest tree) (world.behind command.input)
        | .error failure => (.error failure, world.behind command.input) := by
  rw [outcome_bind, outcome_readInput]
  cases hread : world.content command.input with
  | error fault =>
    rw [document_of_unreadable hread]
    rfl
  | ok bytes =>
    rw [document_of_read hread]
    show outcome _ (world.behind command.input)
      = match reader command.options bytes command.format with
        | .ok tree => outcome (rest tree) _
        | .error failure => _
    rw [outcome_bind, outcome_lift]
    cases reader command.options bytes command.format <;> rfl

/-! ## Handing over the result -/

/-- What becomes of a result: what comes of it, and the world after that. A file has it as a whole
or is not touched; of what is printed, a part from the front may be out. -/
inductive Handed (world : World Place) (result : List UInt8) :
    Option String → Except Failure Unit → World Place → Prop where
  | printed (h : world.Takes result) : Handed world result none (.ok ()) (world.add result)
  | cut {part : List UInt8} {failure : Failure} (h : ¬ world.Takes result)
    (hpart : part <+: result) : Handed world result none (.error failure) (world.add part)
  | written {path : String} {place : Place} (h : world.resolve (.write path) = .ok place) :
    Handed world result (some path) (.ok ()) (world.put place result)
  | unwritten {path : String} {fault : FileFault} (h : world.resolve (.write path) = .error fault) :
    Handed world result (some path) (.error (.file fault)) world

/-- The same for a part of the program that hands over a result. -/
def HandsOver (part : Part Place Unit) (result : List UInt8) (output? : Option String) : Prop :=
  ∀ world, Handed world result output? (outcome part world).1 (outcome part world).2

theorem handsOver_print (failure : FileFault → Failure) (result : List UInt8) :
    HandsOver (System.attempt failure (system.print result) : Part Place Unit) result none := by
  intro world
  have hprint : outcome (System.attempt failure (system.print result)) world
      = ((world.print result).1.mapError failure, (world.print result).2) :=
    outcome_attempt failure (system.print result) world
  rw [hprint, print]
  cases h : world.overflow? result with
  | none => exact .printed (overflow?_eq_none_iff.mp h)
  | some stop =>
    refine .cut (fun htakes => ?_) (List.take_prefix _ _)
    rw [overflow?_eq_none_iff.mpr htakes] at h
    cases h

/-- What becomes of a result behind a text that is printed is what becomes of both together. -/
theorem Handed.behind {first second : List UInt8} {found : Except Failure Unit}
    {after : World Place} (h : world.Takes first)
    (hsecond : Handed (world.add first) second none found after) :
    Handed world (first ++ second) none found after := by
  cases hsecond with
  | printed hsecond =>
    rw [add_add]
    exact .printed (takes_append.mpr ⟨h, hsecond⟩)
  | cut hsecond hpart =>
    rw [add_add]
    exact .cut (fun htakes => hsecond (takes_append.mp htakes).2)
      ((List.prefix_append_right_inj first).mpr hpart)

/-- Two texts that are printed one after the other are one result. -/
theorem handsOver_print_print (failure failure' : FileFault → Failure)
    (first second : List UInt8) :
    HandsOver (do
        System.attempt failure (system.print first)
        System.attempt failure' (system.print second) : Part Place Unit)
      (first ++ second) none := by
  intro world
  rw [outcome_bind]
  have hfirst := handsOver_print failure first world
  generalize outcome (System.attempt failure (system.print first)) world = came at hfirst ⊢
  obtain ⟨found, after⟩ := came
  cases hfirst with
  | cut h hpart =>
    exact .cut (fun htakes => h (takes_append.mp htakes).1) (hpart.trans (List.prefix_append _ _))
  | printed htakes => exact (handsOver_print failure' second (world.add first)).behind htakes

theorem handsOver_writeFile (path : String) (result : List UInt8) :
    HandsOver (System.attempt .file (system.writeFile path result) : Part Place Unit) result
      (some path) := by
  intro world
  have hwrite : outcome (System.attempt .file (system.writeFile path result)) world
      = ((world.writeFile path result).1.mapError .file, (world.writeFile path result).2) :=
    outcome_attempt .file (system.writeFile path result) world
  rw [hwrite, writeFile]
  cases h : world.resolve (.write path) with
  | ok place => exact .written h
  | error fault => exact .unwritten h

theorem handsOver_output (output : Option String) (result : List UInt8) :
    HandsOver (match output with
      | some path =>
        if path ≠ standard then System.attempt .file (system.writeFile path result)
        else System.attempt .file (system.print result)
      | none => System.attempt .file (system.print result) : Part Place Unit) result
      (output.filter (· ≠ standard)) := by
  cases output with
  | none => exact handsOver_print .file result
  | some path =>
    by_cases hpath : path = standard
    · simp only [hpath, ne_eq, not_true_eq_false, if_false]
      exact handsOver_print .file result
    · simp only [hpath, ne_eq, not_false_eq_true, if_true]
      have hfilter : (some path).filter (· ≠ standard) = some path := by
        simp [Option.filter, hpath]
      rw [hfilter]
      exact handsOver_writeFile path result

/-- What a command comes to: nothing but a failure, or what becomes of its result. -/
inductive Performed (reader : Reader) (command : Command) (before : World Place) :
    Except Failure Unit → World Place → Prop where
  | unfit {failure : Failure} (h : before.document reader command = .error failure) :
    Performed reader command before (.error failure) (before.behind command.input)
  | handed {tree : Node} {found : Except Failure Unit} {after : World Place}
    (htree : before.document reader command = .ok tree)
    (h : Handed (before.behind command.input) (bytesOf (command.text tree)) command.output? found
      after) : Performed reader command before found after

theorem performed_document {rest : Node → Part Place Unit}
    (hrest : ∀ tree, HandsOver (rest tree) (bytesOf (command.text tree)) command.output?)
    (reader : Reader) (before : World Place) {part : Part Place Unit}
    (hpart : part = do
      let bytes ← system.readInput command.input
      let tree ← reader command.options bytes command.format
      rest tree) :
    Performed reader command before (outcome part before).1 (outcome part before).2 := by
  rw [hpart, outcome_document]
  cases htree : before.document reader command with
  | error failure => exact .unfit htree
  | ok tree => exact .handed htree (hrest tree (before.behind command.input))

/-- **A command is to find a tree in its input and to hand over what is made of it.** -/
theorem performed (reader : Reader) (command : Command) (before : World Place) :
    Performed reader command before (outcome (system.perform reader command) before).1
      (outcome (system.perform reader command) before).2 := by
  cases command with
  | convert input output format options =>
    exact performed_document (fun tree => handsOver_output output (bytesOf (Markup.render tree)))
      reader before rfl
  | tree input options =>
    refine performed_document (fun tree => ?_) reader before rfl
    show HandsOver _ (bytesOf (tree.encodePretty ++ "\n")) none
    rw [bytesOf_append]
    exact handsOver_print_print .unprinted .file (bytesOf tree.encodePretty) (bytesOf "\n")

/-! ## The end of a run -/

/-- The ways in which the run of a command ends, each with its exit code and the world after it. -/
inductive Ends (reader : Reader) (command : Command) (before : World Place) :
    Nat → World Place → Prop where
  | unfit {failure : Failure} (h : before.document reader command = .error failure) :
    Ends reader command before 1 ((before.behind command.input).failing failure)
  | unwritten {tree : Node} {path : String} {fault : FileFault}
    (htree : before.document reader command = .ok tree) (hpath : command.output? = some path)
    (h : before.resolve (.write path) = .error fault) :
    Ends reader command before 1 ((before.behind command.input).failing (.file fault))
  | cut {tree : Node} {part : List UInt8} {failure : Failure}
    (htree : before.document reader command = .ok tree) (hpath : command.output? = none)
    (h : ¬ before.Takes (bytesOf (command.text tree)))
    (hpart : part <+: bytesOf (command.text tree)) :
    Ends reader command before 1 (((before.behind command.input).add part).failing failure)
  | printed {tree : Node} (htree : before.document reader command = .ok tree)
    (hpath : command.output? = none) (h : before.Takes (bytesOf (command.text tree))) :
    Ends reader command before 0
      ((before.behind command.input).add (bytesOf (command.text tree)))
  | written {tree : Node} {path : String} {place : Place}
    (htree : before.document reader command = .ok tree) (hpath : command.output? = some path)
    (h : before.resolve (.write path) = .ok place) :
    Ends reader command before 0
      ((before.behind command.input).put place (bytesOf (command.text tree)))

/-- The exit code for what comes of a command, and the world in the end. -/
def ending : Except Failure Unit → World Place → Nat × World Place
  | .ok (), after => (0, after)
  | .error failure, after => (1, after.failing failure)

theorem Performed.ends {before : World Place} {found : Except Failure Unit} {after : World Place}
    (h : Performed reader command before found after) :
    Ends reader command before (ending found after).1 (ending found after).2 := by
  cases h with
  | unfit h => exact .unfit h
  | handed htree h =>
    cases hpath : command.output? with
    | none =>
      rw [hpath] at h
      cases h with
      | printed h => exact .printed htree hpath (takes_behind.mp h)
      | cut h hpart => exact .cut htree hpath (mt takes_behind.mpr h) hpart
    | some path =>
      rw [hpath] at h
      cases h with
      | written h => exact .written htree hpath (behind_resolve before _ ▸ h)
      | unwritten h => exact .unwritten htree hpath (behind_resolve before _ ▸ h)

theorem run_command {args : List String} (h : Request.ofArguments args = .run command)
    (reader : Reader) (before : World Place) :
    before.run reader args
      = ending (outcome (system.perform reader command) before).1
          (outcome (system.perform reader command) before).2 := by
  unfold run program outcome
  rw [h]
  show StateT.run ((system.perform reader command).run >>= _) before = _
  rw [StateT.run_bind]
  show StateT.run _ ((system.perform reader command).run.run before).2 = _
  rcases (system.perform reader command).run.run before with ⟨_ | _, _⟩ <;> rfl

/-- One file has been given a content, and no other is changed. -/
structure Replaced (before : World Place) (place : Place) (content : List UInt8)
    (after : World Place) : Prop where
  content_eq : after.content? place = some content
  others : ∀ other, other ≠ place → after.content? other = before.content? other

theorem replaced_put (before : World Place) (input : String) (place : Place)
    (content : List UInt8) :
    Replaced before place content ((before.behind input).put place content) := by
  have hput : ∀ other, ((before.behind input).put place content).content? other
      = if other = place then some content else before.content? other := by
    intro other
    show (putFile (before.behind input).files place content).lookup other = _
    rw [lookup_putFile, behind_files]
    rfl
  refine ⟨?_, fun other hother => ?_⟩
  · rw [hput, if_pos rfl]
  · rw [hput, if_neg hother]

/-- What it is for the run of a command to be all or nothing, where `reader` finds the trees. -/
structure AllOrNothing (reader : Reader) (command : Command) (before : World Place) (code : Nat)
    (after : World Place) : Prop where
  /-- An input without a tree leaves one line with the reason. -/
  unfit : ∀ failure, before.document reader command = .error failure →
    code = 1 ∧ Untouched before after
      ∧ after.reported = before.reported ++ (failure.message ++ "\n")
  /-- No failure leaves anything in the files. -/
  failed : code ≠ 0 → code = 1 ∧ after.files = before.files
  /-- Nothing is printed when there is an output file, not even if it cannot be written. -/
  silent : command.output? ≠ none → after.printed = before.printed
  /-- Without an output file the result may be printed in part, if the standard output does not
  take it all. -/
  cut : ∀ tree, code ≠ 0 → before.document reader command = .ok tree → command.output? = none →
    ¬ before.Takes (bytesOf (command.text tree))
      ∧ ∃ part, part <+: bytesOf (command.text tree) ∧ after.printed = before.printed ++ part
  /-- With success it is printed as a whole. -/
  printed : code = 0 → command.output? = none →
    ∃ tree, before.document reader command = .ok tree ∧ after.files = before.files
      ∧ after.printed = before.printed ++ bytesOf (command.text tree)
  /-- With an output file that one has the whole result, and it alone is changed. The result is
  made of what the input was before. -/
  written : ∀ path, code = 0 → command.output? = some path →
    ∃ tree place, before.document reader command = .ok tree
      ∧ before.resolve (.write path) = .ok place
      ∧ Replaced before place (bytesOf (command.text tree)) after
  /-- A tree is enough for success, if the result can be put where it is to go. -/
  succeeded : ∀ tree, before.document reader command = .ok tree →
    (command.output? = none → before.Takes (bytesOf (command.text tree))) →
    (∀ path, command.output? = some path → ∃ place, before.resolve (.write path) = .ok place) →
    code = 0

theorem Ends.allOrNothing {before : World Place} {code : Nat} {after : World Place}
    (h : Ends reader command before code after) :
    AllOrNothing reader command before code after where
  unfit failure hdocument := by
    cases h with
    | @unfit found hfound =>
      obtain rfl : found = failure := Except.error.inj (hfound.symm.trans hdocument)
      exact ⟨rfl, untouched_failing .., by rw [failing, behind_reported]⟩
    | unwritten htree | cut htree | printed htree | written htree => simp [htree] at hdocument
  failed hcode := by
    cases h with
    | unfit | unwritten | cut => exact ⟨rfl, behind_files before command.input⟩
    | printed | written => exact absurd rfl hcode
  silent hpath := by
    cases h with
    | unfit | unwritten | written => exact behind_printed before command.input
    | cut _ hnone | printed _ hnone => exact absurd hnone hpath
  cut tree hcode htree hpath := by
    cases h with
    | unfit hdocument => simp [hdocument] at htree
    | unwritten _ hsome => simp [hsome] at hpath
    | @cut found part failure hfound _ htakes hpart =>
      obtain rfl : found = tree := Except.ok.inj (hfound.symm.trans htree)
      exact ⟨htakes, part, hpart, printed_add ..⟩
    | printed | written => exact absurd rfl hcode
  printed hcode hpath := by
    cases h with
    | unfit | unwritten | cut => cases hcode
    | printed htree => exact ⟨_, htree, behind_files .., printed_add ..⟩
    | written _ hsome => simp [hsome] at hpath
  written path hcode hpath := by
    cases h with
    | unfit | unwritten | cut => cases hcode
    | printed _ hnone => simp [hnone] at hpath
    | written htree hsome hplace =>
      obtain rfl : _ = path := Option.some.inj (hsome.symm.trans hpath)
      exact ⟨_, _, htree, hplace, replaced_put ..⟩
  succeeded tree htree htakes hplace := by
    cases h with
    | unfit hdocument => simp [hdocument] at htree
    | unwritten _ hpath hfault =>
      obtain ⟨place, hok⟩ := hplace _ hpath
      simp [hfault] at hok
    | @cut found _ _ hfound hpath hfull =>
      obtain rfl : found = tree := Except.ok.inj (hfound.symm.trans htree)
      exact absurd (htakes hpath) hfull
    | printed | written => rfl

/-- A command is carried out as a whole or not at all by whatever means trees are found. -/
theorem allOrNothing_of_run {args : List String} (h : Request.ofArguments args = .run command)
    (reader : Reader) (before : World Place) :
    AllOrNothing reader command before (before.run reader args).1 (before.run reader args).2 := by
  rw [run_command h]
  exact (performed reader command before).ends.allOrNothing

/-- **A command is carried out as a whole or not at all**, whatever the files and the inputs are,
wherever the paths lead and whatever the system refuses. It finds no tree just when the input cannot
be read, is no text or is no stored tree. -/
theorem run_allOrNothing {args : List String} (h : Request.ofArguments args = .run command)
    (before : World Place) :
    AllOrNothing Format.read command before (before.run Format.read args).1
        (before.run Format.read args).2
      ∧ ∀ failure, before.document Format.read command = .error failure
        ↔ before.Unfit command failure :=
  ⟨allOrNothing_of_run h Format.read before, fun _ => document_eq_error_iff⟩

/-- A disk with one stored tree, next to which the program works. -/
def storedText : Disk where
  files := [(["home", "a.json"], bytesOf "\x7b\"type\":\"text\",\"value\":\"x\"\x7d")]
  workplace := ["home"]

/-- The stored tree is converted into the file that it is in, by another path. -/
theorem run_allOrNothing_sameFile :
    let args := ["convert", "a.json", "-o", "../home/./a.json"]
    let command := Command.convert "a.json" (some "../home/./a.json") none {}
    let before := storedText.world []
    Request.ofArguments args = .run command
      ∧ AllOrNothing Format.read command before (before.run Format.read args).1
        (before.run Format.read args).2
      ∧ (before.run Format.read args).1 = 0
      ∧ ((before.run Format.read args).2.readFile "/home/a.json").toOption
        = some (bytesOf "x") := by
  intro args command before
  have hargs : Request.ofArguments args = .run command := by decide +kernel
  exact ⟨hargs, (run_allOrNothing hargs before).1, by decide +kernel, by decide +kernel⟩

end World

end Bracketdown.CommandLine
