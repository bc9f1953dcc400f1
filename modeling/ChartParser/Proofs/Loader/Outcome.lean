import ChartParser.Loader.Files
import ChartParser.Proofs.Loader.Reading

/-!
# Loading from a stream

A load depends on a stream only through what it delivers, and its outcome is
decided by the first thing wrong: an ended line that is not text, then a fault of
the stream, then a rest that is not text. A stream that delivers the bytes of a
text without a fault is loaded like the text.
-/

namespace ChartParser

open Text

namespace Delivered

variable {delivered : Delivered} {texts : List String}

/-- The ended lines and the rest make up the bytes. -/
theorem joined_lines (delivered : Delivered) :
    joined 0x0A delivered.lines ++ delivered.rest = delivered.bytes :=
  joined_pieces 0x0A delivered.bytes

/-- Going through the first lines, all of them text, leaves the bytes after them. -/
theorem foldlM_take_of_texts {after : List (List UInt8)}
    (lines : delivered.lines = texts.map Text.bytes ++ after) (loading : Loading) :
    delivered.bytes.foldlM Reading.take (Reading.start loading) =
      (joined 0x0A after ++ delivered.rest).foldlM Reading.take
        ⟨loading.readEnded texts, texts.length, #[]⟩ := by
  have absent : ∀ text ∈ texts, 0x0A ∉ Text.bytes text := by
    intro text member
    apply not_mem_of_mem_ended 0x0A delivered.bytes
    rw [← Delivered.lines, lines]
    exact List.mem_append_left _ (List.mem_map_of_mem member)
  rw [← delivered.joined_lines, lines, joined_append, List.append_assoc]
  refine (Reading.foldlM_take_lines absent loading 0 _).trans ?_
  rw [Nat.zero_add]

/-- A line that is not text, with only text before it, stops the reading there. -/
theorem foldlM_take_of_badLine {bad : List UInt8} {after : List (List UInt8)}
    (lines : delivered.lines = texts.map Text.bytes ++ bad :: after)
    (notText : ∀ text, bad ≠ Text.bytes text) (loading : Loading) :
    delivered.bytes.foldlM Reading.take (Reading.start loading) =
      .error ⟨loading.readEnded texts, texts.length + 1, Reading.notText⟩ := by
  have absent : 0x0A ∉ bad := by
    apply not_mem_of_mem_ended 0x0A delivered.bytes
    rw [← Delivered.lines, lines]
    exact List.mem_append_right _ List.mem_cons_self
  rw [foldlM_take_of_texts lines, joined_cons, List.append_assoc, List.cons_append,
    Reading.foldlM_take_line absent, Reading.readLine_of_notText _ (dropFinal_ne_bytes notText)]
  rfl

/-- When every ended line is text, the rest is left pending. -/
theorem foldlM_take_of_lines (lines : delivered.lines = texts.map Text.bytes)
    (loading : Loading) :
    delivered.bytes.foldlM Reading.take (Reading.start loading) =
      .ok ⟨loading.readEnded texts, texts.length, delivered.rest.toArray⟩ := by
  have absent : 0x0A ∉ delivered.rest := not_mem_rest 0x0A delivered.bytes
  have noneAfter : delivered.lines = texts.map Text.bytes ++ [] := by rw [lines, List.append_nil]
  rw [foldlM_take_of_texts noneAfter]
  refine (Reading.foldlM_take_of_not_mem absent _).trans ?_
  rw [Array.empty_append]

/-- Lines are all text, or there is a first one that is not. -/
theorem exists_first_bad (lines : List (List UInt8)) :
    (∃ texts : List String, lines = texts.map Text.bytes) ∨
      ∃ (texts : List String) (bad : List UInt8) (after : List (List UInt8)),
        lines = texts.map Text.bytes ++ bad :: after ∧ ∀ text, bad ≠ Text.bytes text := by
  induction lines with
  | nil => exact Or.inl ⟨[], rfl⟩
  | cons line later inductionHypothesis =>
      by_cases isText : ∃ text, line = Text.bytes text
      · obtain ⟨text, rfl⟩ := isText
        rcases inductionHypothesis with ⟨texts, rfl⟩ | ⟨texts, bad, after, rfl, notText⟩
        · exact Or.inl ⟨text :: texts, rfl⟩
        · exact Or.inr ⟨text :: texts, bad, after, rfl, notText⟩
      · exact Or.inr ⟨[], line, later, rfl, not_exists.mp isText⟩

end Delivered

/-- Whatever a stream delivers, a load of it has an outcome. -/
theorem exists_loadOutcome (loading : Loading) (delivered : Delivered) :
    ∃ outcome, LoadOutcome loading delivered outcome := by
  rcases Delivered.exists_first_bad delivered.lines with
    ⟨texts, lines⟩ | ⟨texts, bad, after, lines, notText⟩
  · cases faulty : delivered.fault with
    | some fault => exact ⟨_, .fault lines faulty⟩
    | none =>
        by_cases isText : ∃ last, delivered.rest = Text.bytes last
        · obtain ⟨last, rest⟩ := isText
          exact ⟨_, .loaded lines faulty rest⟩
        · exact ⟨_, .badRest lines faulty (not_exists.mp isText)⟩
  · exact ⟨_, .badLine lines notText⟩

/-- A load has no outcome but its own. -/
theorem LoadOutcome.eq_readStream {loading : Loading} {deliveries : List Delivery}
    {outcome : Except Stopped Loading}
    (decided : LoadOutcome loading (.ofDeliveries deliveries) outcome) :
    loading.readStream deliveries = outcome := by
  rw [Loading.readStream_eq]
  cases decided with
  | badLine lines notText =>
      rw [Delivered.foldlM_take_of_badLine lines notText]
      rfl
  | fault lines faulty =>
      rw [Delivered.foldlM_take_of_lines lines, faulty]
      rfl
  | badRest lines whole notText =>
      rw [Delivered.foldlM_take_of_lines lines, whole]
      exact Reading.finish_of_notText _ _ notText
  | loaded lines whole rest =>
      rw [Delivered.foldlM_take_of_lines lines, whole, rest]
      exact Reading.finish_bytes _ _ _

/-- The outcome of a load is the one that the first thing wrong decides. -/
theorem Loading.readStream_eq_iff {loading : Loading} {deliveries : List Delivery}
    {outcome : Except Stopped Loading} :
    loading.readStream deliveries = outcome ↔
      LoadOutcome loading (.ofDeliveries deliveries) outcome := by
  constructor
  · rintro rfl
    obtain ⟨outcome, decided⟩ := exists_loadOutcome loading (.ofDeliveries deliveries)
    rwa [decided.eq_readStream]
  · exact LoadOutcome.eq_readStream

/-- A load of a stream stops at the first thing wrong and keeps exactly the lines before it, and a
file gives a grammar only when it could be opened and nothing was wrong; otherwise the failure names
the line. -/
theorem load_stops_at_first_fault :
    (∀ loading deliveries outcome, Loading.readStream loading deliveries = outcome ↔
      LoadOutcome loading (.ofDeliveries deliveries) outcome) ∧
    (∀ path opened grammar, (loadFile path opened).result = .ok grammar ↔
      ∃ deliveries loaded, opened = .ok deliveries ∧
        LoadOutcome (.onto (.empty Grammar.defaultStart)) (.ofDeliveries deliveries) (.ok loaded) ∧
        loaded.grammar = grammar) ∧
    ∀ path deliveries stopped,
      LoadOutcome (.onto (.empty Grammar.defaultStart)) (.ofDeliveries deliveries)
        (.error stopped) →
      (loadFile path (.ok deliveries)).result =
        .error ⟨⟨path, stopped.line⟩, stopped.fault⟩ := by
  refine ⟨fun _ _ _ => Loading.readStream_eq_iff, ?_, ?_⟩
  · intro path opened grammar
    simp only [← Loading.readStream_eq_iff]
    cases opened with
    | error fault => simp [loadFile]
    | ok deliveries =>
        rw [loadFile]
        split <;> simp_all
  · intro path deliveries stopped decided
    rw [loadFile, decided.eq_readStream]

/-- A stream that is interrupted inside its second line, and fails inside its third one behind a
byte that is no text. -/
def failingStream : List Delivery :=
  [.data (bytes "S -> a\nS ->"), .failure ⟨.interrupted, none⟩,
    .data (bytes " S S\r\nS -> " ++ [0xFF]), .failure ⟨.other, some "disk on fire"⟩,
    .data (bytes "\nS -> b\n")]

/-- The failing stream stops a load in its third line, with the fault of the stream. Both lines
before it have been added. -/
theorem failing_stream_stops :
    LoadOutcome (.onto (.empty Grammar.defaultStart)) (.ofDeliveries failingStream)
        (.error ⟨Loading.readEnded (.onto (.empty Grammar.defaultStart)) ["S -> a", "S -> S S\r"],
          3, ⟨.other, some "disk on fire"⟩⟩) ∧
      (Loading.readEnded (.onto (.empty Grammar.defaultStart))
          ["S -> a", "S -> S S\r"]).grammar =
        (Grammar.empty "S").registerAll [.terminal "S" "a", .binary "S" "S" "S"] ∧
      (loadFile "toy.cnf" (.ok failingStream)).result =
        .error ⟨⟨"toy.cnf", 3⟩, ⟨.other, some "disk on fire"⟩⟩ := by
  have lines : (Delivered.ofDeliveries failingStream).lines =
      ["S -> a", "S -> S S\r"].map bytes := by
    decide +kernel
  have decided : LoadOutcome (.onto (.empty Grammar.defaultStart))
      (.ofDeliveries failingStream) _ := .fault lines rfl
  exact ⟨decided, by decide +kernel, load_stops_at_first_fault.2.2 _ _ _ decided⟩

/-- Lines are read from a text like ended lines, and what follows them like a line. -/
theorem Loading.readText_eq (loading : Loading) (text : String) :
    loading.readText text =
      (loading.readEnded ((pieces '\n' text.toList).ended.map String.ofList)).readLine
        (String.ofList (pieces '\n' text.toList).rest) := by
  rw [readText, lines, List.map_append, List.foldl_append, readEnded]
  simp only [List.foldl_map, String.toList_ofList]
  cases rest : (pieces '\n' text.toList).rest with
  | nil => exact (readLine_empty _).symm
  | cons character later => rfl

/-- The bytes of a text without a fault are loaded like the text. -/
theorem loadOutcome_of_text (loading : Loading) (text : String) :
    LoadOutcome loading ⟨bytes text, none⟩ (.ok (loading.readText text)) := by
  have parts := pieces_encoded text.toList
  rw [← bytes_eq_encoded] at parts
  rw [Loading.readText_eq]
  refine .loaded ?_ rfl ?_
  · rw [Delivered.lines, parts, List.map_map]
    simp only [Function.comp_def, bytes_ofList]
  · rw [Delivered.rest, parts, bytes_ofList]

/-- A stream that delivers the bytes of a text, however they are cut and however often reading is
interrupted, is loaded like the text. Streams that deliver the same are loaded alike, whatever it
is. -/
theorem readStream_eq_readText :
    (∀ loading text deliveries, Delivered.ofDeliveries deliveries = ⟨bytes text, none⟩ →
      Loading.readStream loading deliveries = .ok (loading.readText text)) ∧
    ∀ loading first second, Delivered.ofDeliveries first = Delivered.ofDeliveries second →
      Loading.readStream loading first = loading.readStream second := by
  constructor
  · intro loading text deliveries whole
    rw [Loading.readStream_eq_iff, whole]
    exact loadOutcome_of_text loading text
  · intro loading first second same
    rw [Loading.readStream_eq, Loading.readStream_eq, same]

/-- A text of two lines, cut inside its only character of two bytes and inside the end of its first
line. -/
def cutStream : List Delivery :=
  [.data (bytes "S -> " ++ [0xC3]), .failure ⟨.interrupted, none⟩, .data [],
    .data [0xA9, 0x0D], .data (0x0A :: bytes "S -> S S")]

/-- The stream that is cut in two awkward places is loaded like the text. -/
theorem cut_stream_loaded :
    Delivered.ofDeliveries cutStream = ⟨bytes "S -> é\r\nS -> S S", none⟩ ∧
      ∃ loaded, (Loading.onto (.empty "S")).readStream cutStream = .ok loaded ∧
        loaded.grammar =
          (Grammar.empty "S").registerAll [.terminal "S" "é", .binary "S" "S" "S"] := by
  have whole : Delivered.ofDeliveries cutStream = ⟨bytes "S -> é\r\nS -> S S", none⟩ := by
    decide +kernel
  exact ⟨whole, _, readStream_eq_readText.1 _ _ _ whole, by decide +kernel⟩

end ChartParser
