import Mathlib.Data.List.Basic
import Mathlib.Data.List.TakeWhile
import LoxSyntax.Command.Session
import LoxSyntax.Proofs.Command.Arguments
import LoxSyntax.Proofs.Messages

/-!
# Transcripts

A session answers each line as a call for a file with that line in it would, whatever the other
lines are (`transcript_session`).  A call for a file reports each error on a line of its own.

A file with a text in UTF-8 is read wherever it stands (`Disk.Holds.read_eq`).  What a session
prints does not depend on how its input is cut into chunks (`Options.session_join`).
-/

namespace LoxSyntax

/-! ## Lines -/

namespace Text

theorem unifyLineEnds_cons_of_ne
    {character : Char} (isOther : character ≠ '\r') (rest : List Char) :
    unifyLineEnds (character :: rest) = character :: unifyLineEnds rest := by
  rw [unifyLineEnds, if_neg isOther]
  rintro _ rfl _
  exact isOther rfl

theorem unifyLineEnds_eq_self
    {text : List Char} (noReturn : '\r' ∉ text) : unifyLineEnds text = text := by
  induction text with
  | nil => rfl
  | cons character rest ih =>
      rw [List.mem_cons, not_or] at noReturn
      obtain ⟨isOther, noReturn⟩ := noReturn
      rw [unifyLineEnds_cons_of_ne (Ne.symm isOther), ih noReturn]

theorem not_mem_unifyLineEnds (text : List Char) : '\r' ∉ unifyLineEnds text := by
  fun_induction unifyLineEnds text with
  | case1 => exact List.not_mem_nil
  | case2 rest ih =>
      rw [List.mem_cons, not_or]
      exact ⟨by decide, ih⟩
  | case3 character rest _ ih =>
      rw [List.mem_cons, not_or]
      refine ⟨?_, ih⟩
      by_cases isReturn : character = '\r'
      · rw [if_pos isReturn]
        decide
      · rw [if_neg isReturn]
        exact Ne.symm isReturn

theorem mem_of_mem_lines
    {text line : List Char} (member : line ∈ lines text)
    {character : Char} (inside : character ∈ line) :
    character ∈ text := by
  fun_induction lines text generalizing line with
  | case1 => contradiction
  | case2 rest ih =>
      rcases List.mem_cons.1 member with rfl | later
      · contradiction
      · exact List.mem_cons_of_mem _ (ih later inside)
  | case3 first rest _ _ _ =>
      rw [List.mem_singleton.1 member] at inside
      rw [List.mem_singleton.1 inside]
      exact List.mem_cons_self
  | case4 first rest _ next others isSplit ih =>
      rw [isSplit] at ih
      rcases List.mem_cons.1 member with rfl | later
      · rcases List.mem_cons.1 inside with rfl | inNext
        · exact List.mem_cons_self
        · exact List.mem_cons_of_mem _ (ih List.mem_cons_self inNext)
      · exact List.mem_cons_of_mem _ (ih (List.mem_cons_of_mem _ later) inside)

theorem lines_cons_of_ne
    {first : Char} (isOther : first ≠ '\n') {rest line : List Char} {others : List (List Char)}
    (split : lines rest = line :: others) :
    lines (first :: rest) = (first :: line) :: others := by
  rw [lines, if_neg isOther, split]

/-- A line in front of its line feed is the first line. -/
theorem lines_append_cons
    {line : List Char} (single : '\n' ∉ line) (rest : List Char) :
    lines (line ++ '\n' :: rest) = line :: lines rest := by
  induction line with
  | nil => rfl
  | cons character others ih =>
      rw [List.mem_cons, not_or] at single
      obtain ⟨isOther, single⟩ := single
      rw [List.cons_append, lines_cons_of_ne (Ne.symm isOther) (ih single)]

/-- Only a carriage return at the end of a text is affected by what stands behind it. -/
theorem unifyLineEnds_append
    {text : List Char} (notReturn : text.getLast? ≠ some '\r') (rest : List Char) :
    unifyLineEnds (text ++ rest) = unifyLineEnds text ++ unifyLineEnds rest := by
  fun_induction unifyLineEnds text with
  | case1 => rfl
  | case2 others ih =>
      rw [List.cons_append, List.cons_append, unifyLineEnds, List.cons_append]
      cases others with
      | nil => rfl
      | cons next later =>
          simp only [List.getLast?_cons_cons] at notReturn
          rw [ih notReturn]
  | case3 character others notPair ih =>
      cases others with
      | nil =>
          have notAlone : character ≠ '\r' := by simpa using notReturn
          rw [List.singleton_append, unifyLineEnds_cons_of_ne notAlone, if_neg notAlone]
          rfl
      | cons next later =>
          rw [List.getLast?_cons_cons] at notReturn
          rw [List.cons_append, List.cons_append, unifyLineEnds, ← List.cons_append, ih notReturn,
            List.cons_append]
          rintro _ rfl equality
          injection equality with isLineFeed _
          exact notPair later rfl (by rw [isLineFeed])

/-- Unifying line ends keeps a line feed at the end. -/
theorem getLast?_unifyLineEnds
    {text : List Char} (ends : text.getLast? = some '\n') :
    (unifyLineEnds text).getLast? = some '\n' := by
  fun_induction unifyLineEnds text with
  | case1 => contradiction
  | case2 others ih =>
      cases others with
      | nil => rfl
      | cons next later =>
          rw [List.getLast?_cons_cons, List.getLast?_cons_cons] at ends
          rw [List.getLast?_cons, ih ends]
          rfl
  | case3 character others _ ih =>
      cases others with
      | nil =>
          have isLineFeed : character = '\n' := by simpa using ends
          rw [isLineFeed]
          rfl
      | cons next later =>
          rw [List.getLast?_cons_cons] at ends
          rw [List.getLast?_cons, ih ends]
          rfl

theorem lines_cons_ne_nil (first : Char) (rest : List Char) : lines (first :: rest) ≠ [] := by
  rw [lines]
  split
  · exact List.cons_ne_nil _ _
  · split <;> exact List.cons_ne_nil _ _

/-- A text that ends with a line feed is over before the lines behind it. -/
theorem lines_append
    {text : List Char} (ends : text.getLast? = some '\n') (rest : List Char) :
    lines (text ++ rest) = lines text ++ lines rest := by
  induction text with
  | nil => contradiction
  | cons first others ih =>
      cases others with
      | nil =>
          have isLineFeed : first = '\n' := by simpa using ends
          rw [isLineFeed]
          rfl
      | cons next later =>
          rw [List.getLast?_cons_cons] at ends
          have behind := ih ends
          by_cases isLineFeed : first = '\n'
          · subst isLineFeed
            have front (text : List Char) : lines ('\n' :: text) = [] :: lines text := by
              rw [lines, if_pos rfl]
            rw [List.cons_append, front, behind, front, List.cons_append]
          · cases split : lines (next :: later) with
            | nil => exact absurd split (lines_cons_ne_nil next later)
            | cons line more =>
                have whole : lines (next :: later ++ rest) = line :: (more ++ lines rest) := by
                  rw [behind, split, List.cons_append]
                rw [List.cons_append, lines_cons_of_ne isLineFeed whole,
                  lines_cons_of_ne isLineFeed split, List.cons_append]

/-- Lines that are written with a line feed behind each of them are read again. -/
theorem lines_flatMap
    {written : List (List Char)} (single : ∀ line ∈ written, '\n' ∉ line) :
    lines (written.flatMap (· ++ ['\n'])) = written := by
  induction written with
  | nil => rfl
  | cons line others ih =>
      obtain ⟨lineSingle, othersSingle⟩ := List.forall_mem_cons.1 single
      rw [List.flatMap_cons, List.append_assoc, List.singleton_append,
        lines_append_cons lineSingle, ih othersSingle]

end Text

/-! ## Files -/

namespace Disk

/-- Where the first parts of a path lead. -/
def placeAfter (path : Path) (count : Nat) : Place :=
  (path.parts.take count).foldl step (start path)

/-- A file with a text in UTF-8 stands at the end of a path, and directories on the way to it. -/
structure Holds (disk : Disk) (path : Path) (text : String) : Prop where
  faultless : path.fault? = none
  short : ∀ part ∈ path.parts, part.utf8ByteSize ≤ Path.maxPartBytes
  onTheWay : ∀ count < path.parts.length,
    disk.find? (placeAfter path count) = some .directory
  found : ∃ bytes,
    disk.find? (placeAfter path path.parts.length) = some (.file bytes) ∧
      String.fromUTF8? bytes = some text

/-- A path leads to what stands at its end if there are directories on the way. -/
theorem walk_eq
    {disk : Disk} {place : Place} {parts : List String} {entry : DiskEntry}
    (short : ∀ part ∈ parts, part.utf8ByteSize ≤ Path.maxPartBytes)
    (onTheWay : ∀ count < parts.length,
      disk.find? ((parts.take count).foldl step place) = some .directory)
    (found : disk.find? (parts.foldl step place) = some entry) :
    disk.walk place parts = .ok entry := by
  induction parts generalizing place with
  | nil =>
      rw [List.foldl_nil] at found
      rw [walk, found]
  | cons part parts ih =>
      obtain ⟨isShort, othersShort⟩ := List.forall_mem_cons.1 short
      have directory : disk.find? place = some .directory := onTheWay 0 (Nat.succ_pos _)
      rw [walk, directory]
      refine (if_neg (Nat.not_lt.2 isShort)).trans (ih othersShort ?_ found)
      intro count isBefore
      exact onTheWay (count + 1) (Nat.succ_lt_succ isBefore)

theorem Holds.read_eq
    {disk : Disk} {path : Path} {text : String} (holds : disk.Holds path text) :
    disk.read path = .ok (String.ofList (Text.unifyLineEnds text.toList)) := by
  obtain ⟨bytes, found, decodes⟩ := holds.found
  rw [placeAfter, List.take_length] at found
  have walks := walk_eq holds.short holds.onTheWay found
  simp only [read, holds.faultless, walks]
  change decode bytes = _
  rw [decode, decodes]

theorem fromUTF8?_toUTF8 (text : String) : String.fromUTF8? text.toUTF8 = some text :=
  dif_pos text.isValidUTF8

/-- A disk with a file at the end of a path, and directories on the way to it. -/
def withFile (path : Path) (text : String) : Disk :=
  ⟨(placeAfter path path.parts.length, .file text.toUTF8) ::
    ((List.range path.parts.length).map (placeAfter path)).map fun place => (place, .directory)⟩

/-- A file can stand at the end of a path, absolute or not, unless the path leads through that
place before or the place is always a directory. -/
theorem holds_withFile
    {path : Path} (faultless : path.fault? = none)
    (short : ∀ part ∈ path.parts, part.utf8ByteSize ≤ Path.maxPartBytes)
    (free : isKnown (placeAfter path path.parts.length) = false)
    (atEnd : ∀ count < path.parts.length,
      placeAfter path count ≠ placeAfter path path.parts.length)
    (text : String) :
    (withFile path text).Holds path text where
  faultless := faultless
  short := short
  onTheWay := by
    intro count isBefore
    have listed : placeAfter path count ∈ (List.range path.parts.length).map (placeAfter path) :=
      List.mem_map_of_mem (List.mem_range.2 isBefore)
    have found : (withFile path text).entries.lookup (placeAfter path count) =
        some .directory := by
      rw [withFile, List.lookup_cons, beq_false_of_ne (atEnd count isBefore)]
      exact List.lookup_graph (fun _ => DiskEntry.directory) listed
    rw [find?, found]
    exact ite_self _
  found := by
    refine ⟨text.toUTF8, ?_, fromUTF8?_toUTF8 text⟩
    rw [find?, free, withFile, List.lookup_cons_self]
    rfl

end Disk

namespace Command

/-! ## Sessions -/

/-- Whether a line asks to leave the session. -/
def asksToLeave (line : List Char) : Bool :=
  let word := String.ofList (Text.trimBlanks line)
  word = "exit" ∨ word = "quit"

theorem Options.reply?_of_leaves
    (options : Options) {line : List Char} (leaves : asksToLeave line) :
    options.reply? line = none := by
  rw [reply?]
  exact if_pos (of_decide_eq_true leaves)

theorem Options.reply?_of_stays
    (options : Options) {line : List Char} (stays : asksToLeave line = false) :
    options.reply? line =
      some (if Text.trimBlanks line = [] then .nothing
        else options.printed (Report.ofSource (String.ofList line))) := by
  rw [reply?]
  refine (if_neg (of_decide_eq_false stays)).trans ?_
  by_cases isBlank : Text.trimBlanks line = []
  · rw [if_pos isBlank, isBlank]
    rfl
  · rw [if_neg isBlank]
    exact if_neg (mt String.ofList_eq_empty_iff.1 isBlank)

/-- A session prints the answers to the lines in front of the first one that asks to leave,
with a prompt in front of each line that it reads. -/
theorem Options.session_eq
    (options : Options) {answer : List Char → Printed} {lines : List (List Char)}
    (answers : ∀ line ∈ lines.takeWhile fun line => !asksToLeave line,
      options.reply? line = some (answer line)) :
    let answered := lines.takeWhile fun line => !asksToLeave line
    options.session lines =
      ⟨String.join (answered.map fun line => prompt ++ (answer line).output) ++ prompt ++
          (if lines.any asksToLeave then "" else "\n"),
        String.join (answered.map fun line => (answer line).errors)⟩ := by
  intro answered
  induction lines with
  | nil => rfl
  | cons line others ih =>
      rw [session]
      by_cases leaves : asksToLeave line
      · rw [options.reply?_of_leaves leaves]
        simp [answered, leaves]
      · rw [Bool.not_eq_true] at leaves
        rw [List.takeWhile_cons_of_pos (by rw [leaves]; rfl)] at answers
        obtain ⟨atLine, later⟩ := List.forall_mem_cons.1 answers
        rw [atLine, ih later]
        simp only [answered, leaves, List.takeWhile_cons, List.any_cons, Bool.not_false, if_true,
          Bool.false_or, List.map_cons, String.join_cons, String.append_assoc]
        rfl

@[simp] theorem Printed.nothing_append (printed : Printed) : .nothing ++ printed = printed := by
  change Printed.mk _ _ = printed
  rw [Printed.nothing, String.empty_append, String.empty_append]

@[simp] theorem Printed.append_nothing (printed : Printed) : printed ++ .nothing = printed := by
  change Printed.mk _ _ = printed
  rw [Printed.nothing, String.append_empty, String.append_empty]

theorem Printed.append_assoc (first second third : Printed) :
    first ++ second ++ third = first ++ (second ++ third) :=
  congrArg₂ Printed.mk (String.append_assoc ..) (String.append_assoc ..)

/-- What a session prints behind its first prompt: the answers, and a line feed behind the last
prompt if no line asked to leave. -/
def Options.tail (options : Options) (lines : List (List Char)) : Printed :=
  let (printed, goesOn) := options.answers lines
  printed ++ if goesOn then ⟨"\n", ""⟩ else .nothing

/-- A session is made of the answers to its lines. -/
theorem Options.session_eq_tail (options : Options) (lines : List (List Char)) :
    options.session lines = ⟨prompt, ""⟩ ++ options.tail lines := by
  induction lines with
  | nil => rfl
  | cons line lines ih =>
      rw [session, tail, answers]
      cases options.reply? line with
      | none => rfl
      | some answer =>
          rw [ih, tail]
          simp only [Printed.append_assoc]

/-- Lines behind others are answered as if they were alone, unless one of those asks to leave. -/
theorem Options.tail_append (options : Options) (front behind : List (List Char)) :
    options.tail (front ++ behind) =
      (options.answers front).1 ++
        if (options.answers front).2 then options.tail behind else .nothing := by
  induction front with
  | nil => exact (Printed.nothing_append _).symm
  | cons line front ih =>
      rw [List.cons_append, tail, answers, answers]
      cases options.reply? line with
      | none => rfl
      | some answer =>
          rw [tail] at ih
          simp only [Printed.append_assoc] at ih ⊢
          rw [ih]

/-- What a session prints does not depend on how its input is cut into chunks, if each but the
last ends with a line feed. -/
theorem Options.session_join
    (options : Options) {chunks : List String}
    (ended : ∀ chunk ∈ chunks.dropLast, chunk.toList.getLast? = some '\n') :
    options.session (Text.lines (Text.unifyLineEnds (String.join chunks).toList)) =
      ⟨prompt, ""⟩ ++ options.answerChunks chunks := by
  rw [session_eq_tail]
  congr 1
  induction chunks with
  | nil => rfl
  | cons chunk chunks ih =>
      have split :
          Text.lines (Text.unifyLineEnds (String.join (chunk :: chunks)).toList) =
            Text.lines (Text.unifyLineEnds chunk.toList) ++
              Text.lines (Text.unifyLineEnds (String.join chunks).toList) := by
        rw [String.join_cons, String.toList_append]
        cases chunks with
        | nil => simp [String.join, Text.unifyLineEnds, Text.lines]
        | cons next later =>
            have ends : chunk.toList.getLast? = some '\n' := ended chunk List.mem_cons_self
            rw [Text.unifyLineEnds_append (by rw [ends]; decide),
              Text.lines_append (Text.getLast?_unifyLineEnds ends)]
      have endedLater : ∀ later ∈ chunks.dropLast, later.toList.getLast? = some '\n' := by
        intro later member
        cases chunks with
        | nil => contradiction
        | cons next others => exact ended later (List.mem_cons_of_mem _ member)
      rw [split, tail_append, ih endedLater, answerChunks, answerChunk]
      obtain ⟨printed, goesOn⟩ := options.answers (Text.lines (Text.unifyLineEnds chunk.toList))
      cases goesOn with
      | true => rfl
      | false => exact Printed.append_nothing _

/-! ## Calls -/

theorem transcript_of_read
    {arguments : List String} {options : Options} {path : Path}
    (accepted : Options.ofArguments arguments = .ok options)
    (hasSource : options.source = some path)
    {read : Path → Except FileFault String} {source : String}
    (reads : read path = .ok source) (input : String) :
    let report := Report.ofSource source
    transcript read arguments input =
      ⟨options.printed report, .exit (if report.success then 0 else 1)⟩ := by
  simp only [transcript, accepted, hasSource, reads]
  rfl

theorem errorLines_eq_empty_iff (report : Report) : errorLines report = "" ↔ report.success := by
  rw [Report.success, List.isEmpty_iff, errorLines]
  cases report.errors with
  | nil => exact iff_of_true rfl rfl
  | cons error others =>
      refine iff_of_false ?_ (List.cons_ne_nil error others)
      intro isEmpty
      have characters := congrArg String.toList isEmpty
      simp at characters

/-- Each error of a report has a line of its own. -/
theorem lines_errorLines (source : String) :
    Text.lines (errorLines (Report.ofSource source)).toList =
      (Report.ofSource source).errors.map fun error => ("Error: " ++ error).toList := by
  have written :
      (errorLines (Report.ofSource source)).toList =
        ((Report.ofSource source).errors.map fun error =>
          ("Error: " ++ error).toList).flatMap (· ++ ['\n']) := by
    rw [errorLines, String.toList_join, List.flatMap_map, List.flatMap_map]
    simp only [String.toList_append]
    rfl
  rw [written, Text.lines_flatMap]
  intro line member
  obtain ⟨error, inErrors, rfl⟩ := List.mem_map.1 member
  rw [String.toList_append, List.mem_append, not_or]
  exact ⟨by decide, Report.not_mem_of_mem_errors inErrors⟩

/-- A call without a source ends well, and prints for each line up to the first that asks to
leave what a call for a file with that line prints, where a blank line stands for nothing.  A
word behind its arguments makes it a call for a file.  Whatever path leads to the file, such a
call ends well if and only if it reports no error, and reports each error of the text on a line
of its own. -/
theorem transcript_session
    {arguments : List String} {options : Options}
    (accepted : Options.ofArguments arguments = .ok options)
    (noSource : options.source = none) :
    (∀ name : String, name.toList.head? ≠ some '-' →
      Options.ofArguments (arguments ++ [name]) =
        .ok { options with source := some (Path.ofText name) }) ∧
    (∀ (fileArguments : List String) (path : Path)
        (readOf : List Char → Path → Except FileFault String)
        (read : Path → Except FileFault String) (input : String),
      let lines := Text.lines (Text.unifyLineEnds input.toList)
      let answered := lines.takeWhile fun line => !asksToLeave line
      let answer (line : List Char) :=
        if Text.trimBlanks line = [] then Printed.nothing
        else (transcript (readOf line) fileArguments "").printed
      Options.ofArguments fileArguments = .ok { options with source := some path } →
      (∀ line ∈ answered,
        readOf line path = .ok (String.ofList (Text.unifyLineEnds line))) →
      transcript read arguments input =
        ⟨⟨String.join (answered.map fun line => "> " ++ (answer line).output) ++ "> " ++
              (if lines.any asksToLeave then "" else "\n"),
            String.join (answered.map fun line => (answer line).errors)⟩,
          .exit 0⟩) ∧
    (∀ (fileArguments : List String) (fileOptions : Options) (path : Path)
        (read : Path → Except FileFault String) (source input : String),
      Options.ofArguments fileArguments = .ok fileOptions →
      fileOptions.source = some path →
      read path = .ok source →
      let report := Report.ofSource source
      let call := transcript read fileArguments input
      (call.ending = .exit 0 ↔ call.printed.errors = "") ∧
        (call.ending = .exit 0 ∨ call.ending = .exit 1) ∧
        call.printed.errors =
          String.join (report.errors.map fun error => "Error: " ++ error ++ "\n") ∧
        Text.lines call.printed.errors.toList =
          report.errors.map fun error => ("Error: " ++ error).toList) ∧
    ∀ (disk : Disk) (path : Path) (text : String), disk.Holds path text →
      disk.read path = .ok (String.ofList (Text.unifyLineEnds text.toList)) := by
  refine ⟨fun name isWord => Options.ofArguments_append_word accepted noSource isWord, ?_, ?_,
    fun disk path text holds => holds.read_eq⟩
  · intro fileArguments path readOf read input lines answered answer fileAccepted reads
    have answers : ∀ line ∈ answered, options.reply? line = some (answer line) := by
      intro line member
      have stays : asksToLeave line = false := by
        simpa using List.mem_takeWhile_imp member
      have inLines : line ∈ lines := (List.takeWhile_sublist _).subset member
      -- A line of the input has no line end in it that reading a file would change.
      have unchanged : Text.unifyLineEnds line = line :=
        Text.unifyLineEnds_eq_self fun inside =>
          Text.not_mem_unifyLineEnds input.toList (Text.mem_of_mem_lines inLines inside)
      have lineRead : readOf line path = .ok (String.ofList line) := by
        rw [reads line member, unchanged]
      rw [options.reply?_of_stays stays]
      simp only [answer, transcript_of_read fileAccepted rfl lineRead ""]
      rfl
    have printed : options.session lines = _ := options.session_eq answers
    simp only [transcript, accepted, noSource, Options.sessionTranscript]
    exact congrArg (Transcript.mk · (.exit 0)) printed
  · intro fileArguments fileOptions path read source input fileAccepted hasSource reads report call
    have isCall : call = _ := transcript_of_read fileAccepted hasSource reads input
    have errors : call.printed.errors = errorLines report := by
      rw [isCall]
      rfl
    have ending : call.ending = .exit (if report.success then 0 else 1) := by
      rw [isCall]
    have ends :
        (call.ending = .exit 0 ↔ report.success) ∧
          (call.ending = .exit 0 ∨ call.ending = .exit 1) := by
      rw [ending]
      cases report.success with
      | true => exact ⟨iff_of_true rfl rfl, .inl rfl⟩
      | false => exact ⟨iff_of_false (by decide) (by decide), .inr rfl⟩
    rw [errors, errorLines_eq_empty_iff]
    exact ⟨ends.1, ends.2, rfl, lines_errorLines source⟩

/-- A session that goes on behind an open group and a blank line, up to the word that ends it,
beside calls for a file whose path starts at the root. -/
theorem transcript_session_quit :
    let arguments := ["--tree", "dump"]
    let options : Options := ⟨none, false, .outline, false⟩
    let fileArguments := arguments ++ ["/tmp/line.lox"]
    let path : Path := ⟨"/", ["tmp", "line.lox"]⟩
    let read : Path → Except FileFault String := fun _ => .error .notFound
    Options.ofArguments arguments = .ok options ∧
      options.source = none ∧
      Options.ofArguments fileArguments = .ok { options with source := some path } ∧
      (∀ text, (Disk.withFile path text).Holds path text) ∧
      transcript read arguments "(nil\n \ntrue\r\n quit \n1" =
        ⟨⟨"> Grouping\n  Literal nil\n> > Literal true\n> ",
            "Error: line 1: expecting ')'\n"⟩,
          .exit 0⟩ ∧
      (transcript (Disk.withFile path "(nil\r\n1").read fileArguments "").printed.errors =
        "Error: line 2: expecting ')'\n" := by
  intro arguments options fileArguments path read
  have accepted : Options.ofArguments arguments = .ok options := by decide +kernel
  have fileAccepted :
      Options.ofArguments fileArguments = .ok { options with source := some path } := by
    decide +kernel
  have holds (text : String) : (Disk.withFile path text).Holds path text :=
    Disk.holds_withFile (by decide +kernel) (by decide) (by decide) (by decide) text
  obtain ⟨_, session, file, reading⟩ := transcript_session accepted rfl
  have reads (text : String) := reading _ path text (holds text)
  refine ⟨accepted, rfl, fileAccepted, holds, ?_, ?_⟩
  · let readOf (line : List Char) := (Disk.withFile path (String.ofList line)).read
    have lineReads (line : List Char) :
        readOf line path = .ok (String.ofList (Text.unifyLineEnds line)) := by
      have whole := reads (String.ofList line)
      rwa [String.toList_ofList] at whole
    rw [session fileArguments path readOf read _ fileAccepted fun line _ => lineReads line]
    decide +kernel
  · obtain ⟨_, _, errors, _⟩ := file _ _ _ _ _ "" fileAccepted rfl (reads "(nil\r\n1")
    rw [errors]
    decide +kernel

end Command

end LoxSyntax
