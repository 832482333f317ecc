import Mathlib.Data.List.Basic
import ParallelFilter.Command.Multiplex
import ParallelFilter.Text.Number
import ParallelFilter.Proofs.Quotation

/-! What the multiplex command prints can be read back. Each line tells of one delivery, or is the
last one, with what was counted. The reader below knows the printed text only, and finds the
deliveries in it. -/

namespace ParallelFilter

/-! ### The reader -/

/-- The payload that is shown so. -/
def Payload.read? (shown : List Char) : Option Payload :=
  match "int ".toList.isPrefixOf? shown with
  | some digits => (Text.digits? digits).map .int
  | none =>
    ("text ".toList.isPrefixOf? shown).bind fun quoted =>
      (Text.unquote? quoted).map fun cs => .text (String.ofList cs)

namespace Command

/-- The delivery that a line tells of, if it tells of one. -/
def readDelivery? (line : String) : Option (Delivery Payload) := do
  let rest ← "[channel ".toList.isPrefixOf? line.toList
  let source ← Text.digits? (rest.takeWhile Char.isDigit)
  let shown ← "] ".toList.isPrefixOf? (rest.dropWhile Char.isDigit)
  let value ← Payload.read? shown
  return ⟨source, value⟩

/-- The lines of a printed text, each of which ends with a line feed. -/
def printedLines (text : String) : List String :=
  (text.toList.splitOn '\n').dropLast.map String.ofList

/-- The deliveries that a printed text tells of. -/
def readDeliveries (text : String) : List (Delivery Payload) :=
  (printedLines text).filterMap readDelivery?

end Command

/-! ### Numbers and fixed texts -/

theorem isPrefixOf?_append (front rest : List Char) : front.isPrefixOf? (front ++ rest) = some rest :=
  List.isPrefixOf?_eq_some_iff_append_eq.2 rfl

theorem toList_toString (number : Nat) : (toString number).toList = Nat.toDigits 10 number := by
  rw [Nat.toString_eq_repr, Nat.toList_repr]

theorem isDigit_of_mem_toString {number : Nat} {c : Char} (h : c ∈ (toString number).toList) :
    c.isDigit := by
  rw [toList_toString] at h
  exact Nat.isDigit_of_mem_toDigits (by decide) (by decide) h

theorem Text.digits?_toString (number : Nat) : Text.digits? (toString number).toList = some number := by
  have hdigits : (toString number).toList.all Char.isDigit :=
    List.all_eq_true.2 fun _ h => isDigit_of_mem_toString h
  have hvalue : Text.digitsValue (Nat.toDigits 10 number) = number :=
    Nat.ofDigitChars_toDigits (by decide) (by decide)
  rw [toList_toString] at hdigits ⊢
  rw [Text.digits?, if_pos ⟨Nat.toDigits_ne_nil, hdigits⟩, hvalue]

/-! ### Payloads -/

/-- The word in front tells a number from a text, and what follows it is the number or the quoted
text. -/
theorem Payload.read?_shown (payload : Payload) :
    Payload.read? payload.shown.toList = some payload := by
  cases payload with
  | int value =>
      rw [Payload.shown, String.toList_append, Payload.read?, isPrefixOf?_append]
      simp only [Text.digits?_toString, Option.map_some]
  | text value =>
      have hshown : (Payload.text value).shown.toList = "text ".toList ++ Text.quote value.toList :=
        String.toList_append.trans (congrArg _ String.toList_ofList)
      have hother (rest : List Char) : "int ".toList.isPrefixOf? ("text ".toList ++ rest) = none := rfl
      rw [hshown, Payload.read?, hother]
      simp only [isPrefixOf?_append, Option.bind_some, Text.unquote?_quote, Option.map_some,
        String.ofList_toList]

theorem Payload.shown_injective : Function.Injective Payload.shown := by
  intro first second hsame
  apply Option.some.inj
  rw [← first.read?_shown, hsame, second.read?_shown]

/-- A text all of whose characters can be seen. -/
def Visible (text : String) : Prop :=
  ∀ c ∈ text.toList, Text.isVisible c

namespace Visible

theorem append {first second : String} (hfirst : Visible first) (hsecond : Visible second) :
    Visible (first ++ second) := by
  intro c h
  rw [String.toList_append, List.mem_append] at h
  exact h.elim (hfirst c) (hsecond c)

theorem ascii {text : String} (h : text.toList.all fun c => 0x20 ≤ c.toNat && c.toNat < 0x7F) :
    Visible text :=
  fun _ hmem => Text.isVisible_of_mem_ascii hmem h

theorem number (number : Nat) : Visible (toString number) := by
  intro c h
  rw [toList_toString] at h
  exact Text.isVisible_of_mem_toDigits (by decide) h

theorem payload (payload : Payload) : Visible payload.shown := by
  cases payload with
  | int value => exact (ascii rfl).append (number value)
  | text value =>
      refine (ascii rfl).append fun c h => ?_
      rw [String.toList_ofList] at h
      exact Text.isVisible_of_mem_quote h

theorem isControl_eq_false {text : String} (h : Visible text) {c : Char} (hmem : c ∈ text.toList) :
    Text.isControl c = false :=
  Text.not_isControl_of_isVisible (h c hmem)

theorem newline_notMem {text : String} (h : Visible text) : '\n' ∉ text.toList := by
  intro hmem
  have hcontrol : Text.isControl '\n' = false := h.isControl_eq_false hmem
  revert hcontrol
  decide

end Visible

/-! ### Lines -/

namespace Command

/-- The number of the channel ends where its digits end, and the rest of the line is the payload. -/
theorem readDelivery?_line (item : Delivery Payload) :
    readDelivery? ("[channel " ++ toString item.source ++ "] " ++ item.value.shown) = some item := by
  have hdigits : ∀ c ∈ (toString item.source).toList, c.isDigit := fun _ => isDigit_of_mem_toString
  have hends (rest : List Char) : ("] ".toList ++ rest).takeWhile Char.isDigit = [] := rfl
  have hrest (rest : List Char) : ("] ".toList ++ rest).dropWhile Char.isDigit =
      "] ".toList ++ rest := rfl
  simp only [readDelivery?, String.toList_append, List.append_assoc, isPrefixOf?_append,
    Option.bind_eq_bind, Option.bind_some, List.takeWhile_append_of_pos hdigits,
    List.dropWhile_append_of_pos hdigits, hends, hrest, List.append_nil, Text.digits?_toString,
    Payload.read?_shown, Option.pure_def]

theorem readDelivery?_summary (rest : String) : readDelivery? ("received " ++ rest) = none := by
  have hother (rest : List Char) : "[channel ".toList.isPrefixOf? ("received ".toList ++ rest) =
      none := rfl
  rw [readDelivery?, String.toList_append, hother]
  rfl

theorem visible_of_mem_report {items : List (Delivery Payload)} {tally : MultiplexTally} {line : String}
    (h : line ∈ multiplexReport items tally) : Visible line := by
  rw [multiplexReport, List.mem_append, List.mem_map, List.mem_singleton] at h
  rcases h with ⟨item, -, rfl⟩ | rfl
  · exact (Visible.ascii rfl).append (.number _) |>.append (.ascii rfl) |>.append (.payload _)
  · exact (Visible.ascii rfl).append (.number _) |>.append (.ascii rfl) |>.append (.number _)
      |>.append (.ascii rfl) |>.append (.number _) |>.append (.ascii rfl) |>.append
        (.number _) |>.append (.ascii rfl)

/-- Lines that are each ended by a line feed are parted by it, with nothing behind the last. -/
theorem intercalate_concat_nil (lines : List (List Char)) :
    ['\n'].intercalate (lines ++ [[]]) = lines.flatMap fun line => line ++ ['\n'] := by
  induction lines with
  | nil => rfl
  | cons line lines ih =>
      rw [List.cons_append, List.intercalate_cons_of_ne_nil
        (List.append_ne_nil_of_right_ne_nil _ (by decide)), ih, List.flatMap_cons]

theorem printedLines_printed (transcript : Transcript)
    (h : ∀ line ∈ transcript.lines, '\n' ∉ line.toList) :
    printedLines transcript.printed = transcript.lines := by
  have hjoined : transcript.printed.toList =
      ['\n'].intercalate (transcript.lines.map String.toList ++ [[]]) := by
    rw [Transcript.printed, String.toList_join, intercalate_concat_nil, List.flatMap_map,
      List.flatMap_map]
    exact List.flatMap_congr fun line _ => String.toList_append
  have hwhole : ∀ line ∈ transcript.lines.map String.toList ++ [[]], '\n' ∉ line := by
    intro line hmem
    rw [List.mem_append, List.mem_map, List.mem_singleton] at hmem
    rcases hmem with ⟨line, hline, rfl⟩ | rfl
    · exact h line hline
    · exact List.not_mem_nil
  have hback : String.ofList ∘ String.toList = id := funext fun _ => String.ofList_toList
  rw [printedLines, hjoined, List.splitOn_intercalate _ hwhole
    (List.append_ne_nil_of_right_ne_nil _ (by decide)), List.dropLast_concat, List.map_map, hback,
    List.map_id]

theorem printedLines_report (items : List (Delivery Payload)) (tally : MultiplexTally) :
    printedLines (Transcript.printed ⟨multiplexReport items tally, none⟩) =
      multiplexReport items tally :=
  printedLines_printed _ fun _ h => (visible_of_mem_report h).newline_notMem

/-- The lines of the deliveries are read, and the last line is passed over. -/
theorem readDeliveries_report (items : List (Delivery Payload)) (tally : MultiplexTally) :
    readDeliveries (Transcript.printed ⟨multiplexReport items tally, none⟩) = items := by
  have hsummary : (multiplexReport [] tally).filterMap readDelivery? = [] := by
    simp only [multiplexReport, List.map_nil, List.nil_append, String.append_assoc, List.filterMap_cons,
      readDelivery?_summary, List.filterMap_nil]
  have hlines : (readDelivery? ∘ fun item => "[channel " ++ toString item.source ++ "] " ++
      item.value.shown) = some :=
    funext readDelivery?_line
  have hcut : multiplexReport items tally =
      items.map (fun item => "[channel " ++ toString item.source ++ "] " ++ item.value.shown) ++
        multiplexReport [] tally := rfl
  rw [readDeliveries, printedLines_report, hcut, List.filterMap_append, hsummary, List.append_nil,
    List.filterMap_map, hlines, List.filterMap_some]

/-! ### The command -/

/-- **A report reads back.** Two payloads are shown alike only if they are equal, and nothing that
is shown leaves its line. So what the command prints has just the lines of its report, and tells of
just the deliveries that were received. -/
theorem multiplex_report_reads_back :
    Function.Injective Payload.shown ∧
    (∀ payload : Payload, ∀ c ∈ payload.shown.toList, Text.isControl c = false) ∧
    (∀ (items : List (Delivery Payload)) (tally : MultiplexTally),
      printedLines (Transcript.printed ⟨multiplexReport items tally, none⟩) =
        multiplexReport items tally ∧
      readDeliveries (Transcript.printed ⟨multiplexReport items tally, none⟩) = items) ∧
    ∀ (request : MultiplexRequest) (isShutdown : Bool),
      (multiplexTranscript request isShutdown).map
          (fun transcript => readDeliveries transcript.printed) =
        (runMultiplex request isShutdown).map Prod.fst := by
  refine ⟨Payload.shown_injective, fun payload _ => (Visible.payload payload).isControl_eq_false,
    fun items tally => ⟨printedLines_report items tally, readDeliveries_report items tally⟩,
    fun request isShutdown => ?_⟩
  rw [multiplexTranscript, Option.map_map]
  congr 1
  funext received
  exact readDeliveries_report received.1 received.2

/-- A text that looks like a written code point, and one with a line feed and a line like that of
another channel. -/
theorem multiplex_report_reads_back_lookalikes :
    (Payload.text "\\u\x7b41\x7d").shown ≠ (Payload.text "A").shown ∧
    '\n' ∉ (Payload.text "item-0\n[channel 0] int 7").shown.toList ∧
    readDeliveries (Transcript.printed
      ⟨multiplexReport [⟨1, .text "item-0\n[channel 0] int 7"⟩, ⟨0, .int 7⟩] ⟨2, [1, 1], 0⟩, none⟩) =
      [⟨1, .text "item-0\n[channel 0] int 7"⟩, ⟨0, .int 7⟩] := by
  obtain ⟨hinjective, hcontrol, hreads, -⟩ := multiplex_report_reads_back
  refine ⟨fun hsame => ?_, fun hnewline => ?_, (hreads _ _).2⟩
  · have htexts := hinjective hsame
    revert htexts
    decide
  · have hfeed := hcontrol _ _ hnewline
    revert hfeed
    decide

end Command

end ParallelFilter
