import Reckon.Proofs.Launching
import Reckon.Proofs.Picture
import Reckon.Proofs.Quoting
import Reckon.Proofs.ReadBack
import Reckon.Proofs.Resolution
import Reckon.Proofs.Rows

/-!
# Reckon — what is seen of the command

The status of the command is told by how it was called, by the bytes that it read and by the
language, and by nothing else. It is 2 if the settings or the source cannot be read, and then of
several misuses the first is told. A listing of tokens never fails. The other two outputs are made
in ways of their own, but they refuse the same sources, with the same report. And nothing is printed
in part: without status 0 there is no output, and with it there is all that was asked for, line by
line.

* `Requested` — all that was asked for, for each output.
* `Misuse.Told` — what is told about a misuse.
* `Visible.Shows` — what is seen where a source was read.
* `run_visible` — all runs, whatever the process was started with.
-/

namespace Reckon

open Text

-- ---------------------------------------------------------------------------
-- The bytes of a source
-- ---------------------------------------------------------------------------

/-- The bytes that the invocation has read: those of the file, or those that come in. -/
def Invocation.bytes? (invocation : Invocation) (around : Surroundings) : Option ByteArray :=
  match invocation.arguments.head? with
  | some path => around.file? path
  | none => some around.input

-- ---------------------------------------------------------------------------
-- Listings
-- ---------------------------------------------------------------------------

/-- The line of a token in a listing, without its newline: its offset, in a column of six, two
blanks, its kind, and in parentheses its text if the kind does not tell it. -/
def Token.row (token : Token) : String :=
  let offset := toString token.span.start.offset
  let shown := if token.kind ∈ [.identifier, .number, .unrecognised] then token.text else ""
  String.ofList (List.replicate (6 - offset.length) ' ') ++ offset ++ "  " ++ token.kind.name ++
    " (" ++ shown ++ ")"

/-- The row of a token ends in the token as it is listed. -/
theorem Token.row_eq (token : Token) :
    token.row = String.ofList (List.replicate (6 - (toString token.span.start.offset).length) ' ')
      ++ toString token.span.start.offset ++ "  " ++ token.listing := by
  have hempty : " (" ++ "" ++ ")" = (" ()" : String) := rfl
  cases hkind : token.kind <;> simp [row, listing, hkind, String.append_assoc, ← hempty]

/-- A line of a listing is a row with its newline. -/
theorem listingLine_eq (token : Token) : Command.listingLine token = token.row ++ "\n" := by
  rw [token.row_eq]
  rfl

theorem Kind.plain_name (kind : Kind) : Plain kind.name := by
  cases kind <;> decide

/-- A row is one line, if the token is. -/
theorem Token.plain_row {token : Token} (h : Plain token.text) : Plain token.row := by
  have hsigns : Plain " (" ∧ Plain ")" ∧ Plain " ()" ∧ Plain "  " := by decide
  have hlisting : Plain token.listing := by
    unfold listing
    split <;> simp [hsigns, h, Kind.plain_name]
  rw [token.row_eq]
  simp [hsigns, hlisting]

/-- A listing has a line for every token, and nothing behind the last of them. -/
theorem splitOn_listing {tokens : List Token} (h : ∀ token ∈ tokens, Plain token.text) :
    (String.join (tokens.map Command.listingLine)).toList.splitOn '\n' =
      tokens.map (fun token => token.row.toList) ++ [[]] := by
  rw [String.toList_join, List.flatMap_map]
  induction tokens with
  | nil => rfl
  | cons token later ih =>
    -- a row has no newline, so the first piece is the first row and the rest are the others
    obtain ⟨htoken, hlater⟩ := List.forall_mem_cons.mp h
    have hnewline : "\n".toList = ['\n'] := rfl
    rw [List.flatMap_cons, listingLine_eq, String.toList_append, hnewline, List.append_assoc,
      List.singleton_append, List.splitOn_append_cons_self_of_not_mem (Token.plain_row htoken),
      ih hlater]
    rfl

-- ---------------------------------------------------------------------------
-- What a source is asked for
-- ---------------------------------------------------------------------------

/-- The source is in the language: the kinds of its tokens, without the end, are a sentence. -/
def InLanguage (source name : String) : Prop :=
  (beforeEnd (tokenize source name)).map Token.kind ∈ grammar.language

/-- The text is all that is asked for. A listing has a line for every token, the end token among
them; a derivation and a program are there with all their lines. -/
inductive Requested (source name : String) : Output → String → Prop
  | tokens {text : String}
      (hlines : text.toList.splitOn '\n' =
        (tokenize source name).map (fun token => token.row.toList) ++ [[]]) :
      Requested source name .tokens text
  | derivation {derivation : Derivation} (h : (derive source name).outcome = .ok derivation) :
      Requested source name .derivation (Row.lines derivation.rows)
  | ast {program : Program} (h : (parse source name).outcome = .ok program) :
      Requested source name .ast (Row.lines program.rows)

/-- What is seen where a source was read. -/
structure Visible.Shows (visible : Visible) (output : Output) (source name : String) : Prop where
  listed   : output = .tokens → visible.status = 0
  judged   : output ≠ .tokens →
               (visible.status = 0 ↔ InLanguage source name) ∧
                 (visible.status = 1 ↔ ¬ InLanguage source name)
  accepted : visible.status = 0 →
               Requested source name output visible.output ∧ visible.complaint = ""
  refused  : visible.status ≠ 0 →
               visible.output = "" ∧ ∃ fault report,
                 (parse source name).outcome = .error (.fault fault) ∧
                   fault.report? source = some report ∧ visible.complaint = report ++ "\n"

section

variable {source name : String}

/-- A source has a derivation if it is in the language. -/
theorem exists_derive_iff :
    (∃ derivation, (derive source name).outcome = .ok derivation) ↔ InLanguage source name := by
  constructor
  · rintro ⟨derivation, hmatch⟩
    have hcovers : derivation.Covers (tokenize source name) := covers_of_matchTokens hmatch
    rw [InLanguage, ← hcovers.yield]
    exact Derivation.mem_language hcovers.nonempty hcovers.wellKinded
  · exact fun h => exists_matchTokens_of_run? name (run?_of_mem_language h)

/-- Sources are printed as derivations and as programs, or they are refused for the same fault. -/
theorem derive_or_parse (source name : String) :
    (InLanguage source name ∧ (∃ derivation, (derive source name).outcome = .ok derivation) ∧
      ∃ program, (parse source name).outcome = .ok program) ∨
    (¬ InLanguage source name ∧ ∃ fault report,
      (derive source name).outcome = .error (.fault fault) ∧
        (parse source name).outcome = .error (.fault fault) ∧
        fault.report? source = some report) := by
  cases hmatch : (derive source name).outcome with
  | ok derivation =>
    -- every derivation of a source can be built into a program
    obtain ⟨program, hprogram, -⟩ := exists_program_of_matchTokens hmatch
    exact .inl ⟨exists_derive_iff.mp ⟨derivation, hmatch⟩, ⟨derivation, rfl⟩, program,
      parse_outcome_eq_ok_iff.mpr ⟨derivation, hmatch, hprogram⟩⟩
  | error stop =>
    have hnot : ¬ InLanguage source name := by
      intro hin
      obtain ⟨derivation, hderive⟩ := exists_derive_iff.mpr hin
      rw [hmatch] at hderive
      exact absurd hderive (by simp)
    -- the fault is about a token of the source, and so can be shown in it
    obtain ⟨taken, stage, found, hhalt, rfl⟩ := matchTokens_tokenize_eq_error_iff.mp hmatch
    obtain ⟨report, hshown⟩ := exists_shownAt (List.mem_of_getElem? hhalt.getElem?) stage
    exact .inr ⟨hnot, _, report, rfl, parse_outcome_eq_error_iff.mpr hmatch, hshown.reported⟩

end

-- ---------------------------------------------------------------------------
-- What is told about a misuse
-- ---------------------------------------------------------------------------

/-- What is told about a misuse: what was found, and what would have been good. -/
inductive Misuse.Told : Misuse → String → Prop
  | tooManyArguments (count : Nat) :
      Told (.tooManyArguments count)
        ("ael: expected at most one source path, received " ++ toString count ++ "\n")
  | unknownImportance {text found : String} (hfound : Quotes text found) :
      Told (.unknownImportance text)
        ("ael: unknown log level " ++ found ++
          " in AEL_LOG, expected error, warn, info, debug or trace\n")
  | unknownOutput {text found : String} (hfound : Quotes text found) :
      Told (.unknownOutput text)
        ("ael: unknown output " ++ found ++
          " in AEL_EMIT, expected ast, tokens or derivation\n")

/-- A misuse is told in the words for it. -/
theorem Misuse.told_message (misuse : Misuse) :
    misuse.Told ("ael: " ++ misuse.message ++ "\n") := by
  cases misuse with
  | unknownImportance text =>
    have hmessage : (unknownImportance text).message = "unknown log level " ++ quoted text ++
        " in AEL_LOG, expected error, warn, info, debug or trace" := rfl
    have hfront : "ael: " ++ "unknown log level " = "ael: unknown log level " := by simp
    have hback : " in AEL_LOG, expected error, warn, info, debug or trace" ++ "\n" =
        " in AEL_LOG, expected error, warn, info, debug or trace\n" := by simp
    rw [hmessage, ← String.append_assoc, ← String.append_assoc, hfront, String.append_assoc, hback]
    exact .unknownImportance (quotes_quoted text)
  | unknownOutput text =>
    have hmessage : (unknownOutput text).message = "unknown output " ++ quoted text ++
        " in AEL_EMIT, expected ast, tokens or derivation" := rfl
    have hfront : "ael: " ++ "unknown output " = "ael: unknown output " := by simp
    have hback : " in AEL_EMIT, expected ast, tokens or derivation" ++ "\n" =
        " in AEL_EMIT, expected ast, tokens or derivation\n" := by simp
    rw [hmessage, ← String.append_assoc, ← String.append_assoc, hfront, String.append_assoc, hback]
    exact .unknownOutput (quotes_quoted text)
  | tooManyArguments count =>
    have hmessage : (tooManyArguments count).message =
        "expected at most one source path, received " ++ toString count := rfl
    have hfront : "ael: " ++ "expected at most one source path, received " =
        "ael: expected at most one source path, received " := by simp
    rw [hmessage, ← String.append_assoc, hfront]
    exact .tooManyArguments count

-- ---------------------------------------------------------------------------
-- The command on a source that was read
-- ---------------------------------------------------------------------------

namespace Command

variable {settings : Settings} {source : String}

/-- What could be printed is printed, and nothing is complained about. -/
theorem runOn_of_ok {text : String}
    (h : (print settings.output source settings.sourceName).outcome = .ok text) :
    (runOn settings source).status = 0 ∧ (runOn settings source).output = text ∧
      (runOn settings source).complaint = "" := by
  simp only [runOn, h]
  exact ⟨trivial, trivial, trivial⟩

/-- What could not be printed leaves a complaint and nothing else. -/
theorem runOn_of_error {stop : Stop}
    (h : (print settings.output source settings.sourceName).outcome = .error stop) :
    (runOn settings source).status = 1 ∧ (runOn settings source).output = "" ∧
      (runOn settings source).complaint = complaintOf stop source := by
  simp only [runOn, h]
  exact ⟨trivial, trivial, trivial⟩

/-- What is printed is what is asked for. -/
theorem print_outcome (output : Output) (source name : String) :
    (∃ text, (print output source name).outcome = .ok text ∧ Requested source name output text ∧
      (output ≠ .tokens → InLanguage source name)) ∨
    (output ≠ .tokens ∧ ¬ InLanguage source name ∧ ∃ fault report,
      (print output source name).outcome = .error (.fault fault) ∧
        (parse source name).outcome = .error (.fault fault) ∧
        fault.report? source = some report) := by
  cases output with
  | tokens =>
    have hplain : ∀ token ∈ tokenize source name, Plain token.text := by
      intro token hmem
      obtain ⟨-, -, -, -, hplain, -⟩ := exists_split_of_mem_tokenize hmem
      exact hplain
    exact .inl ⟨_, rfl, .tokens (splitOn_listing hplain), fun hne => absurd rfl hne⟩
  | derivation =>
    rcases derive_or_parse source name with ⟨hin, ⟨derivation, hderive⟩, -⟩ | hnot
    · refine .inl ⟨Row.lines derivation.rows, ?_, .derivation hderive, fun _ => hin⟩
      rw [print, hderive, ← derivation.indented_eq_lines]
      rfl
    · obtain ⟨hnot, fault, report, hderive, hparse, hreport⟩ := hnot
      exact .inr ⟨by simp, hnot, fault, report, by rw [print, hderive]; rfl, hparse, hreport⟩
  | ast =>
    rcases derive_or_parse source name with ⟨hin, -, program, hparse⟩ | hnot
    · refine .inl ⟨Row.lines program.rows, ?_, .ast hparse, fun _ => hin⟩
      rw [print, hparse, ← program.indented_eq_lines]
      rfl
    · obtain ⟨hnot, fault, report, -, hparse, hreport⟩ := hnot
      exact .inr ⟨by simp, hnot, fault, report, by rw [print, hparse]; rfl, hparse, hreport⟩

/-- What is seen where a source was read. -/
theorem runOn_shows (settings : Settings) (source : String) :
    (runOn settings source).Shows settings.output source settings.sourceName := by
  rcases print_outcome settings.output source settings.sourceName with
    ⟨text, hprint, hrequested, hin⟩ | ⟨hne, hnot, fault, report, hprint, hparse, hreport⟩
  · obtain ⟨hstatus, houtput, hcomplaint⟩ := runOn_of_ok hprint
    refine ⟨fun _ => hstatus, fun hne => ?_, fun _ => ⟨houtput ▸ hrequested, hcomplaint⟩,
      fun hbad => absurd hstatus hbad⟩
    simp [hstatus, hin hne]
  · obtain ⟨hstatus, houtput, hcomplaint⟩ := runOn_of_error hprint
    refine ⟨fun htokens => absurd htokens hne, fun _ => by simp [hstatus, hnot],
      fun hgood => absurd hgood (by simp [hstatus]), fun _ => ⟨houtput, fault, report, hparse,
        hreport, ?_⟩⟩
    rw [hcomplaint, complaintOf, hreport]
    rfl

-- ---------------------------------------------------------------------------
-- The whole command
-- ---------------------------------------------------------------------------

variable {invocation : Invocation} {around : Surroundings}

/-- A misuse ends the run before anything is read or logged. -/
theorem run_of_misused {misuse : Misuse} (h : invocation.Misused misuse) (around : Surroundings) :
    run invocation around = ⟨2, "", [], "ael: " ++ misuse.message ++ "\n"⟩ := by
  rw [run, resolve_eq_error_iff.mpr h]

/-- Of a misuse nothing is seen but what is told about it. -/
theorem exists_told_of_misused {misuse : Misuse} (h : invocation.Misused misuse)
    (around : Surroundings) :
    ∃ told, misuse.Told told ∧ run invocation around = ⟨2, "", [], told⟩ :=
  ⟨_, misuse.told_message, run_of_misused h around⟩

/-- The source is read from what the one argument names, or from the input. -/
theorem source?_of_asks (h : invocation.Asks settings) :
    source? settings around = (invocation.bytes? around).bind String.fromUTF8? := by
  rw [source?, h.source, Invocation.bytes?]
  cases invocation.arguments.head? <;> rfl

/-- Bytes that are a text are run as this text. -/
theorem run_of_asks (h : invocation.Asks settings)
    (hbytes : invocation.bytes? around = some source.toUTF8) :
    run invocation around = runOn settings source := by
  have hsource : source? settings around = some source := by
    rw [source?_of_asks h, hbytes]
    exact fromUTF8?_eq_some_iff.mpr rfl
  rw [run, resolve_eq_ok_iff.mpr h]
  simp only [hsource]

/-- Bytes that are none end the run, with an entry in the log. -/
theorem run_of_unreadable (h : invocation.Asks settings)
    (hnone : ∀ source : String, invocation.bytes? around ≠ some source.toUTF8) :
    run invocation around =
      ⟨2, "", [⟨.error, "failed to read source", [("source", settings.sourceName)]⟩], ""⟩ := by
  have hsource : source? settings around = none := by
    rw [source?_of_asks h, Option.eq_none_iff_forall_ne_some]
    intro source hsome
    obtain ⟨bytes, hbytes, htext⟩ := Option.bind_eq_some_iff.mp hsome
    exact hnone source (by rw [hbytes, fromUTF8?_eq_some_iff.mp htext])
  rw [run, resolve_eq_ok_iff.mpr h]
  simp only [hsource]

/-- The ways in which a run goes: what the invocation asks for is shown, or the source cannot be
read, or the invocation is misused. -/
theorem run_cases (invocation : Invocation) (around : Surroundings) :
    (∃ settings source, invocation.Asks settings ∧
      invocation.bytes? around = some source.toUTF8 ∧
        run invocation around = runOn settings source) ∨
    ((run invocation around).status = 2 ∧ (run invocation around).output = "" ∧
      ((∀ source : String, invocation.bytes? around ≠ some source.toUTF8) ∨
        ∃ misuse, invocation.Misused misuse)) := by
  cases hresolve : Settings.resolve invocation with
  | error misuse =>
    have hmisused := resolve_eq_error_iff.mp hresolve
    rw [run_of_misused hmisused]
    exact .inr ⟨rfl, rfl, .inr ⟨misuse, hmisused⟩⟩
  | ok settings =>
    have hasks := resolve_eq_ok_iff.mp hresolve
    by_cases hreadable : ∃ source : String, invocation.bytes? around = some source.toUTF8
    · obtain ⟨source, hbytes⟩ := hreadable
      exact .inl ⟨settings, source, hasks, hbytes, run_of_asks hasks hbytes⟩
    · have hnone : ∀ source : String, invocation.bytes? around ≠ some source.toUTF8 :=
        fun source hbytes => hreadable ⟨source, hbytes⟩
      rw [run_of_unreadable hasks hnone]
      exact .inr ⟨rfl, rfl, .inl hnone⟩

end Command

/-- An invocation is misused exactly if one of its three parts is bad. -/
theorem exists_misused_iff {invocation : Invocation} :
    (∃ misuse, invocation.Misused misuse) ↔
      1 < invocation.arguments.length ∨
      (∃ text, invocation.log = some text ∧ ∀ degree : Importance, ¬ degree.NamedBy text) ∨
      ∃ text, invocation.output = some text ∧ ∀ output : Output, ¬ output.NamedBy text := by
  constructor
  · rintro ⟨misuse, hmany | ⟨-, hlog, hnone⟩ | ⟨-, -, houtput, hnone⟩⟩
    · exact .inl hmany
    · exact .inr (.inl ⟨_, hlog, hnone⟩)
    · exact .inr (.inr ⟨_, houtput, hnone⟩)
  · intro hbad
    rcases Nat.lt_or_ge 1 invocation.arguments.length with hmany | hfew
    · exact ⟨_, .tooManyArguments hmany⟩
    by_cases hlog : ∃ text, invocation.log = some text ∧
        ∀ degree : Importance, ¬ degree.NamedBy text
    · obtain ⟨text, hlog, hnone⟩ := hlog
      exact ⟨_, .unknownImportance hfew hlog hnone⟩
    · obtain ⟨text, houtput, hnone⟩ :=
        (hbad.resolve_left (Nat.not_lt.mpr hfew)).resolve_left hlog
      refine ⟨_, .unknownOutput hfew ?_ houtput hnone⟩
      cases hsetting : invocation.log with
      | none => exact ⟨.warn, rfl⟩
      | some text =>
        -- with a good log, a bad output would have been told
        by_contra hnot
        exact hlog ⟨text, hsetting, fun degree hnamed => hnot ⟨degree, hnamed⟩⟩

namespace Visible.Shows

variable {a b : Visible} {output output' : Output} {source name : String}

/-- Where a source was read it is accepted or refused. -/
theorem status_eq (h : a.Shows output source name) : a.status = 0 ∨ a.status = 1 := by
  by_cases htokens : output = .tokens
  · exact .inl (h.listed htokens)
  obtain ⟨hgood, hbad⟩ := h.judged htokens
  by_cases hin : InLanguage source name
  · exact .inl (hgood.mpr hin)
  · exact .inr (hbad.mpr hin)

/-- Outputs that are judged are alike, in the status and in the report. -/
theorem alike (h : a.Shows output source name) (h' : b.Shows output' source name)
    (hne : output ≠ .tokens) (hne' : output' ≠ .tokens) : a.Alike b := by
  obtain ⟨hgood, hbad⟩ := h.judged hne
  obtain ⟨hgood', hbad'⟩ := h'.judged hne'
  by_cases hin : InLanguage source name
  · have hstatus := hgood.mpr hin
    have hstatus' := hgood'.mpr hin
    exact ⟨hstatus.trans hstatus'.symm,
      (h.accepted hstatus).2.trans (h'.accepted hstatus').2.symm⟩
  · have hstatus := hbad.mpr hin
    have hstatus' := hbad'.mpr hin
    obtain ⟨-, fault, report, hparse, hreport, hcomplaint⟩ := h.refused (by simp [hstatus])
    obtain ⟨-, fault', report', hparse', hreport', hcomplaint'⟩ := h'.refused (by simp [hstatus'])
    obtain rfl : fault = fault' := by
      rw [hparse] at hparse'
      exact Stop.fault.inj (Except.error.inj hparse')
    obtain rfl := Option.some.inj (hreport.symm.trans hreport')
    exact ⟨hstatus.trans hstatus'.symm, hcomplaint.trans hcomplaint'.symm⟩

end Visible.Shows

namespace Command

variable {invocation : Invocation} {around : Surroundings}

/-- Whether an invocation asks for a program or for a derivation, its run comes out alike. -/
theorem run_alike {setting setting' : Option String} (h : Asked Output.NamedBy .ast setting .ast)
    (h' : Asked Output.NamedBy .ast setting' .derivation) :
    (run { invocation with output := setting } around).Alike
      (run { invocation with output := setting' } around) := by
  cases hresolve : Settings.resolve { invocation with output := setting } with
  | error misuse =>
    have hmisused := resolve_eq_error_iff.mp hresolve
    -- the output is not what is wrong, since it names the program
    have hmisused' : Invocation.Misused { invocation with output := setting' } misuse := by
      rcases hmisused with hmany | ⟨hfew, hlog, hnone⟩ | ⟨-, -, houtput, hnone⟩
      · exact .tooManyArguments hmany
      · exact .unknownImportance hfew hlog hnone
      · obtain rfl : setting = _ := houtput
        exact absurd h (hnone .ast)
    rw [run_of_misused hmisused, run_of_misused hmisused']
    exact ⟨rfl, rfl⟩
  | ok settings =>
    have hasks := resolve_eq_ok_iff.mp hresolve
    have hast : Invocation.Asks { invocation with output := setting }
        { settings with output := .ast } := ⟨hasks.few, hasks.source, hasks.log, h⟩
    have hderivation : Invocation.Asks { invocation with output := setting' }
        { settings with output := .derivation } := ⟨hasks.few, hasks.source, hasks.log, h'⟩
    by_cases hreadable : ∃ source : String, invocation.bytes? around = some source.toUTF8
    · obtain ⟨source, hbytes⟩ := hreadable
      rw [run_of_asks hast hbytes, run_of_asks hderivation hbytes]
      exact (runOn_shows _ source).alike (runOn_shows _ source) (by simp) (by simp)
    · have hnone : ∀ source : String, invocation.bytes? around ≠ some source.toUTF8 :=
        fun source hbytes => hreadable ⟨source, hbytes⟩
      rw [run_of_unreadable hast hnone, run_of_unreadable hderivation hnone]
      exact ⟨rfl, rfl⟩

/-- The status is 2 exactly if no source was read. -/
theorem run_status_eq_two_iff :
    (run invocation around).status = 2 ↔
      (∃ misuse, invocation.Misused misuse) ∨
        ∀ source : String, invocation.bytes? around ≠ some source.toUTF8 := by
  rcases run_cases invocation around with
    ⟨settings, source, hasks, hbytes, hrun⟩ | ⟨hstatus, -, hbad⟩
  · have hnot : ¬ ∃ misuse, invocation.Misused misuse := by
      rintro ⟨misuse, hmisused⟩
      have hresolve := resolve_eq_ok_iff.mpr hasks
      rw [resolve_eq_error_iff.mpr hmisused] at hresolve
      exact absurd hresolve (by simp)
    have hshows := (runOn_shows settings source).status_eq
    constructor
    · intro hstatus
      rw [hrun] at hstatus
      omega
    · rintro (hmisused | hnone)
      · exact absurd hmisused hnot
      · exact absurd hbytes (hnone source)
  · exact ⟨fun _ => hbad.symm, fun _ => hstatus⟩

/-- No run has another status than these three. -/
theorem run_status_le (invocation : Invocation) (around : Surroundings) :
    (run invocation around).status ≤ 2 := by
  rcases run_cases invocation around with ⟨settings, source, -, -, hrun⟩ | ⟨hstatus, -⟩
  · have hstatus := (runOn_shows settings source).status_eq
    rw [hrun]
    omega
  · exact Nat.le_of_eq hstatus

/-- A process has the status of its run, or one that no run has if there is none. -/
theorem start_status (launch : Launch) (around : Surroundings) :
    ((start launch around).status = 101 ↔
      ∃ word ∈ launch.words, ∀ text : String, word ≠ text.toUTF8) ∧
    ((start launch around).status = 101 → (start launch around).output = "") ∧
    ((start launch around).status ≠ 101 → ∃ invocation, launch.AmountsTo invocation) := by
  cases hinvocation : launch.invocation? with
  | none =>
    have hword := invocation?_eq_none_iff.mp hinvocation
    rw [start_eq_brokeOff_iff.mpr hword]
    exact ⟨⟨fun _ => hword, fun _ => rfl⟩, fun _ => rfl, fun hstatus => absurd rfl hstatus⟩
  | some invocation =>
    have hamounts := invocation?_eq_some_iff.mp hinvocation
    have hword : ¬ ∃ word ∈ launch.words, ∀ text : String, word ≠ text.toUTF8 := by
      rw [← invocation?_eq_none_iff, hinvocation]
      simp
    -- no run has this status
    have hstatus : (start launch around).status ≠ 101 := by
      have hle := run_status_le invocation around
      rw [start_of_amountsTo hamounts around, Ending.status]
      omega
    exact ⟨⟨fun h => absurd h hstatus, fun h => absurd h hword⟩, fun h => absurd h hstatus,
      fun _ => ⟨invocation, hamounts⟩⟩

end Command

end Reckon
