import VisualNovel.Proofs.Console.Redraw
import VisualNovel.Proofs.Json.Quotes
import Mathlib.Algebra.BigOperators.Group.List.Basic
import Mathlib.Algebra.Ring.Nat

namespace VisualNovel

-- The lines of a text in which each line ends with a line feed.
def Console.linesIn (printed : String) : List String :=
  ((printed.toList.splitOn '\n').dropLast).map String.ofList

def newlines (text : String) : Nat := text.toList.count '\n'

namespace Agent

def tagOf (line : String) : String := String.ofList (line.toList.takeWhile (· ≠ ':'))

def Report.tags (report : Report) : List String :=
  ["RESULT", "EVENT"] ++ report.boundary.events.map (fun _ => "EVENT_JSON") ++
    report.boundary.options.map (fun _ => "CHOICE") ++
    report.boundary.fault.toList.map (fun _ => "FAULT_JSON") ++ ["STATE_OUT"]

end Agent

theorem length_splitOn (mark : Char) (text : List Char) :
    (text.splitOn mark).length = text.count mark + 1 := by
  induction text with
  | nil => rfl
  | cons c rest ih =>
    rw [List.splitOn_cons_eq_if_modifyHead]
    by_cases same : c = mark
    · rw [if_pos (beq_iff_eq.2 same), same, List.count_cons_self, List.length_cons, ih]
    · rw [if_neg (mt beq_iff_eq.1 same), List.count_cons_of_ne same, List.length_modifyHead, ih]

theorem newlines_eq_zero : newlines text = 0 ↔ '\n' ∉ text.toList := List.count_eq_zero

theorem sum_newlines_eq_zero {items : List α} {text : α → String} :
    (items.map fun item => newlines (text item)).sum = 0 ↔
      ∀ item ∈ items, '\n' ∉ (text item).toList := by
  rw [List.sum_eq_zero_iff_forall_eq_nat, List.forall_mem_map]
  exact forall₂_congr fun item _ => newlines_eq_zero

theorem newlines_append (front back : String) :
    newlines (front ++ back) = newlines front + newlines back := by
  simp [newlines]

theorem newlines_write (value : Json) : newlines value.write = 0 := by
  rw [newlines_eq_zero, Json.write, String.toList_ofList]
  exact Json.newline_not_mem_chars value

namespace Console

variable {lines : List String}

theorem text_cons (line : String) (lines : List String) :
    (text (line :: lines)).toList = line.toList ++ '\n' :: (text lines).toList := by
  simp [text, Shown.line]

theorem length_linesIn (printed : String) : (linesIn printed).length = newlines printed := by
  rw [linesIn, List.length_map, List.length_dropLast, length_splitOn]
  rfl

theorem newlines_text (lines : List String) :
    newlines (text lines) = lines.length + (lines.map newlines).sum := by
  induction lines with
  | nil => rfl
  | cons line lines ih =>
    unfold newlines at ih ⊢
    rw [text_cons, List.count_append, List.count_cons_self, ih]
    simp only [List.map_cons, List.sum_cons, List.length_cons]
    omega

theorem splitOn_text (plain : ∀ line ∈ lines, '\n' ∉ line.toList) :
    (text lines).toList.splitOn '\n' = lines.map String.toList ++ [[]] := by
  induction lines with
  | nil => rfl
  | cons line lines ih =>
    obtain ⟨first, others⟩ := List.forall_mem_cons.1 plain
    rw [text_cons, List.splitOn_append_cons_self_of_not_mem first, ih others]
    rfl

theorem linesIn_text_iff :
    linesIn (text lines) = lines ↔ ∀ line ∈ lines, '\n' ∉ line.toList := by
  constructor
  · intro same line member
    rw [← same] at member
    obtain ⟨piece, cut, rfl⟩ := List.mem_map.1 member
    rw [String.toList_ofList]
    exact not_mem_of_mem_splitOn (List.dropLast_subset _ cut)
  · intro plain
    rw [linesIn, splitOn_text plain, List.dropLast_concat, List.map_map]
    simp

end Console

namespace Agent

variable {report : Report}

theorem newlines_optionLine (option : ChoiceOption) :
    newlines (optionLine option) = newlines option.label := by
  simp only [optionLine, newlines_append, newlines_write]
  rw [show newlines "CHOICE:" = 0 from rfl, show newlines "|" = 0 from rfl]
  omega

theorem newlines_faultLine (fault : Fault) : newlines (faultLine fault) = 0 := by
  rw [faultLine, newlines_append, newlines_write]
  rfl

theorem newlines_eventLine (event : Event) :
    newlines ("EVENT_JSON:" ++ event.toJson.write) = 0 := by
  rw [newlines_append, newlines_write]
  rfl

theorem newlines_kindLine (kind : BoundaryKind) : newlines ("EVENT:" ++ kind.name) = 0 := by
  cases kind <;> decide

-- Only the labels of a report can break its lines.
theorem newlines_report (plain : ∀ path ∈ report.stateOut, '\n' ∉ path.toList) :
    (report.lines.map newlines).sum =
      (report.boundary.options.map fun option => newlines option.label).sum := by
  have last : newlines ("STATE_OUT:" ++ report.stateOut.getD "NONE") = 0 := by
    rw [newlines_append]
    cases told : report.stateOut with
    | none => rfl
    | some path =>
      rw [Option.getD_some, newlines_eq_zero.2 (plain path told)]
      rfl
  have events : ((report.boundary.events.map fun event =>
      "EVENT_JSON:" ++ event.toJson.write).map newlines).sum = 0 := by
    simp [Function.comp_def, newlines_eventLine]
  have faults : ((report.boundary.fault.toList.map faultLine).map newlines).sum = 0 := by
    simp [Function.comp_def, newlines_faultLine]
  have options : (report.boundary.options.map optionLine).map newlines =
      report.boundary.options.map fun option => newlines option.label := by
    rw [List.map_map]
    exact List.map_congr_left fun option _ => newlines_optionLine option
  have first : (["RESULT:OK", "EVENT:" ++ report.boundary.kind.name].map newlines).sum = 0 := by
    simp only [List.map_cons, List.map_nil, List.sum_cons, newlines_kindLine]
    rfl
  simp only [Report.lines, List.map_append, List.sum_append, first, events, faults, options,
    Nat.zero_add, Nat.add_zero]
  simp [last]

theorem tagOf_append (spelled : opening.toList = tag.toList ++ [':']) (plain : ':' ∉ tag.toList)
    (rest : String) : tagOf (opening ++ rest) = tag := by
  have all : ∀ c ∈ tag.toList, decide (c ≠ ':') = true := by
    intro c member
    exact decide_eq_true fun same => plain (same ▸ member)
  rw [tagOf, String.toList_append, spelled, List.append_assoc, List.takeWhile_append_of_pos all]
  simp

theorem map_tagOf (report : Report) : report.lines.map tagOf = report.tags := by
  have event (event : Event) : tagOf ("EVENT_JSON:" ++ event.toJson.write) = "EVENT_JSON" :=
    tagOf_append rfl (by decide) _
  have option (option : ChoiceOption) : tagOf (optionLine option) = "CHOICE" := by
    rw [optionLine, String.append_assoc, String.append_assoc]
    exact tagOf_append rfl (by decide) _
  have fault (fault : Fault) : tagOf (faultLine fault) = "FAULT_JSON" :=
    tagOf_append rfl (by decide) _
  have kind : tagOf ("EVENT:" ++ report.boundary.kind.name) = "EVENT" :=
    tagOf_append rfl (by decide) _
  have last : tagOf ("STATE_OUT:" ++ report.stateOut.getD "NONE") = "STATE_OUT" :=
    tagOf_append rfl (by decide) _
  have first : tagOf "RESULT:OK" = "RESULT" := by decide
  simp [Report.lines, Report.tags, Function.comp_def, event, option, fault, kind, last, first]

theorem length_lines (report : Report) : report.lines.length =
    3 + report.boundary.events.length + report.boundary.options.length +
      report.boundary.fault.toList.length := by
  simp only [Report.lines, List.length_append, List.length_map, List.length_cons, List.length_nil]
  omega

theorem getElem?_lines {option : ChoiceOption} (found : report.boundary.options[i]? = some option) :
    report.lines[2 + report.boundary.events.length + i]? = some (optionLine option) := by
  let front := ["RESULT:OK", "EVENT:" ++ report.boundary.kind.name] ++
    report.boundary.events.map fun event => "EVENT_JSON:" ++ event.toJson.write
  let behind := report.boundary.fault.toList.map faultLine ++
    ["STATE_OUT:" ++ report.stateOut.getD "NONE"]
  have lines : report.lines = front ++ (report.boundary.options.map optionLine ++ behind) := by
    simp [Report.lines, front, behind]
  have long : front.length = 2 + report.boundary.events.length := by
    simp [front]
    omega
  have within : i < (report.boundary.options.map optionLine).length := by
    rw [List.length_map]
    exact (List.getElem?_eq_some_iff.1 found).1
  rw [lines, ← long, List.getElem?_append_right (Nat.le_add_right _ _), Nat.add_sub_cancel_left,
    List.getElem?_append_left within, List.getElem?_map, found]
  rfl

theorem optionLine_split (option : ChoiceOption) : ∃ body, optionLine option = "CHOICE:" ++ body ∧
    ∀ text rest shown, (body = text ++ "|" ++ rest ∧ Json.read? rest = some (.string shown)) ↔
      text = option.label ∧ rest = (Json.string option.display).write ∧ shown = option.display := by
  refine ⟨option.label ++ "|" ++ (Json.string option.display).write, ?_, ?_⟩
  · simp only [optionLine, String.append_assoc]
  · intro text rest shown
    have bars := Json.split_at_bar option.label.toList text.toList rest.toList option.display shown
    simpa [Json.write, Json.chars, Json.read?, ← String.toList_inj] using bars

theorem report_of_output {result : Except ConsoleError (Option Report)}
    (printed : Console.agentOutput result = some output) (succeeded : output.code = 0) :
    ∃ report, result = .ok (some report) ∧ output.text = Console.text report.lines := by
  cases result with
  | error error =>
    cases Option.some.inj printed
    cases succeeded
  | ok reported =>
    cases reported with
    | none => cases printed
    | some report =>
      cases Option.some.inj printed
      exact ⟨report, rfl, rfl⟩

theorem report_reads_by_lines (input : List InputLine) (plain : '\n' ∉ command.stateOut.toList)
    (returned : (Console.runRequest budget here input (.agent command)).runOn disk =
      (some output, after)) (succeeded : output.code = 0) :
    ∃ report, (run budget here command).on disk = (.ok (some report), after) ∧
      output.text = Console.text report.lines ∧
      report.lines.length = 3 + report.boundary.events.length + report.boundary.options.length +
        report.boundary.fault.toList.length ∧
      report.lines.map tagOf = report.tags ∧
      (Console.linesIn output.text).length = report.lines.length +
        (report.boundary.options.map fun option => newlines option.label).sum ∧
      (Console.linesIn output.text = report.lines ↔
        ∀ option ∈ report.boundary.options, '\n' ∉ option.label.toList) ∧
      ∀ i option, report.boundary.options[i]? = some option →
        ∃ body, report.lines[2 + report.boundary.events.length + i]? = some ("CHOICE:" ++ body) ∧
          ∀ text rest shown,
            (body = text ++ "|" ++ rest ∧ Json.read? rest = some (.string shown)) ↔
              text = option.label ∧ rest = (Json.string option.display).write ∧
                shown = option.display := by
  unfold Console.runRequest at returned
  rw [FileProgram.runOn_bind, FileProgram.runOn_pure] at returned
  obtain ⟨printed, left⟩ := Prod.mk.inj returned
  have ran : (run budget here command).on disk =
      (((run budget here command).on disk).1, after) := Prod.ext rfl left
  obtain ⟨report, result, told⟩ := report_of_output printed succeeded
  rw [show ((run budget here command).on disk).1 = _ from result] at ran
  obtain ⟨played, reply, -, settled⟩ := leaves_of_run ran
  have out : ∀ path ∈ report.stateOut, '\n' ∉ path.toList := by
    intro path told
    rw [(report_of_settle settled).2 path told]
    exact plain
  have broken := newlines_report out
  refine ⟨report, ran, told, length_lines report, map_tagOf report, ?_, ?_, ?_⟩
  · rw [Console.length_linesIn, told, Console.newlines_text, broken]
  · calc
      Console.linesIn output.text = report.lines
          ↔ ∀ line ∈ report.lines, '\n' ∉ line.toList := by rw [told, Console.linesIn_text_iff]
      _ ↔ (report.lines.map newlines).sum = 0 := sum_newlines_eq_zero.symm
      _ ↔ ∀ option ∈ report.boundary.options, '\n' ∉ option.label.toList := by
        rw [broken, sum_newlines_eq_zero]
  · intro i option found
    obtain ⟨body, line, split⟩ := optionLine_split option
    exact ⟨body, by rw [getElem?_lines found, line], split⟩

def choiceScript (label : String) : String :=
  "[\x7b\"type\":\"choice\",\"choice\":[\x7b\"display\":\"B\",\"label\":" ++
    (Json.string label).write ++ "\x7d]\x7d]"

def choiceDisk (label : String) : Disk :=
  ⟨.directory [("w", .directory [("s", .file (.text (choiceScript label)))])], ["w"]⟩

def choiceStart : AgentCommand := .start ⟨"s", none, none, none, none, "a"⟩

def choiceRun : FileProgram (Option Console.Output) :=
  Console.runRequest 9 "/w" [] (.agent choiceStart)

def choiceReport (label : String) : Report :=
  ⟨⟨.choice, [.choice [⟨"B", label⟩]], [⟨"B", label⟩], none⟩, some "a"⟩

theorem report_reads_by_lines_at_bar_in_label : ∃ output after report,
    choiceRun.runOn (choiceDisk "a|\"b\"") = (some output, after) ∧ output.code = 0 ∧
      '\n' ∉ choiceStart.stateOut.toList ∧ report = choiceReport "a|\"b\"" ∧
      Console.linesIn output.text = report.lines ∧
      ∃ body, report.lines[3]? = some ("CHOICE:" ++ body) ∧
        ∀ text rest shown, (body = text ++ "|" ++ rest ∧ Json.read? rest = some (.string shown)) ↔
          text = "a|\"b\"" ∧ rest = "\"B\"" ∧ shown = "B" := by
  have told : (choiceRun.runOn (choiceDisk "a|\"b\"")).1 =
      some ⟨0, Console.text (choiceReport "a|\"b\"").lines⟩ := by decide +kernel
  have made : ((run 9 "/w" choiceStart).on (choiceDisk "a|\"b\"")).1 =
      .ok (some (choiceReport "a|\"b\"")) := by decide +kernel
  cases ran : choiceRun.runOn (choiceDisk "a|\"b\"") with
  | mk printed after =>
    rw [ran] at told
    obtain rfl := told
    have out : '\n' ∉ choiceStart.stateOut.toList := by decide
    obtain ⟨report, own, -, -, -, -, lines, options⟩ := report_reads_by_lines [] out ran rfl
    rw [own] at made
    cases made
    have plain : ∀ option ∈ (choiceReport "a|\"b\"").boundary.options,
      '\n' ∉ option.label.toList := by decide
    exact ⟨_, after, _, rfl, rfl, out, rfl, lines.2 plain, options 0 ⟨"B", "a|\"b\""⟩ rfl⟩

-- The report of one option with a line feed in its label prints six lines, not five.
theorem report_broken_by_label : ∃ output after report,
    choiceRun.runOn (choiceDisk "a\nb") = (some output, after) ∧ output.code = 0 ∧
      '\n' ∉ choiceStart.stateOut.toList ∧
      (run 9 "/w" choiceStart).on (choiceDisk "a\nb") = (.ok (some report), after) ∧
      output.text = Console.text report.lines ∧
      (Console.linesIn output.text).length ≠ 3 + report.boundary.events.length +
        report.boundary.options.length + report.boundary.fault.toList.length := by
  have made : ((run 9 "/w" choiceStart).on (choiceDisk "a\nb")).1 =
      .ok (some (choiceReport "a\nb")) := by decide +kernel
  cases ran : (run 9 "/w" choiceStart).on (choiceDisk "a\nb") with
  | mk result after =>
    rw [ran] at made
    obtain rfl := made
    have told : choiceRun.runOn (choiceDisk "a\nb") =
        (some ⟨0, Console.text (choiceReport "a\nb").lines⟩, after) := by
      unfold choiceRun Console.runRequest
      dsimp only
      rw [FileProgram.runOn_bind, show FileProgram.runOn _ (run 9 "/w" choiceStart).run = _ from ran]
      rfl
    refine ⟨_, after, _, told, rfl, by decide, rfl, rfl, ?_⟩
    rw [Console.length_linesIn, Console.newlines_text]
    decide +kernel

end Agent

end VisualNovel
