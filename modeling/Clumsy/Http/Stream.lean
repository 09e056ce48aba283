/-
# Http.Stream -- httpserver.cpp: the stream of counters

`serveEventStream` sends a header block without a length and then one frame for each turn of its
loop, until the server stops or a frame does not get out.  A browser that reads such a stream
line by line gets the payloads of the first frames, each as it was and in their order, wherever
the network breaks off; and it can parse every one of them.
-/
import Clumsy.Control.Dispatch
import Clumsy.Control.Live
import Clumsy.Http.Response

namespace Clumsy.Http

open Clumsy.Control (Live apiStatsJson idleApp says_apiStatsJson statsTree)
open Clumsy.Theory.EventStream (Message OneLine frame frames)

set_option autoImplicit false

variable {β : Type}

def streamType : List Char := "text/event-stream".toList

def streamLines : List (List Char) :=
  ["HTTP/1.1 200 OK".toList, field typeName streamType, "Cache-Control: no-store".toList,
    "Connection: close".toList, "X-Accel-Buffering: no".toList]

def statsFrame (payload : List Char) : List Char :=
  "event: stats\ndata: ".toList ++ payload ++ "\n\n".toList

/-- The loop, with a payload for each turn until the server stops. -/
def streamFrames : List (List Char) → List Nat → List Char
  | [], _ => []
  | payload :: payloads, outs =>
      let sent := sendAll outs (statsFrame payload)
      if !sent.2.1 then sent.1 else sent.1 ++ streamFrames payloads sent.2.2

def serveEventStream (payloads : List (List Char)) (outs : List Nat) : List Char :=
  let header := sendAll outs (blockText streamLines)
  if !header.2.1 then header.1 else header.1 ++ streamFrames payloads header.2.2

/-- What a browser dispatches: nothing before the header block is whole. -/
def dispatched (s : List Char) : Option (List Message) := do
  let (lines, behind) ← readLines [] s
  let contentType ← fieldValue typeName lines
  if contentType = streamType then some (Theory.EventStream.read behind) else none

/-- The message of a payload. -/
def statsMessage (payload : List Char) : Message := { type := "stats".toList, data := payload }

theorem statsFrame_eq (payload : List Char) :
    statsFrame payload = frame (statsMessage payload) := by
  have front : "event: stats\ndata: ".toList =
      "event: ".toList ++ "stats".toList ++ '\n' :: "data: ".toList := by simp
  have back : "\n\n".toList = ['\n', '\n'] := by simp
  unfold statsFrame frame Theory.EventStream.eventLine Theory.EventStream.dataLine statsMessage
  rw [front, back]
  simp only [List.append_assoc, List.cons_append]

theorem statsMessage_fits (live : Live β) : (statsMessage (apiStatsJson live)).Fits where
  named := show "stats".toList ≠ [] by decide
  type := show OneLine "stats".toList by unfold OneLine; decide
  data := (says_apiStatsJson live).2

/-! ## What gets out -/

theorem streamFrames_front (payloads : List (List Char)) (outs : List Nat) :
    streamFrames payloads outs <+: frames (payloads.map statsMessage) := by
  induction payloads generalizing outs with
  | nil => exact List.nil_prefix
  | cons payload payloads ih =>
      obtain ⟨front, whole, -⟩ := sendAll_front outs (statsFrame payload)
      have text : frames ((payload :: payloads).map statsMessage) =
          statsFrame payload ++ frames (payloads.map statsMessage) := by
        rw [statsFrame_eq]
        rfl
      rw [text, streamFrames]
      cases all : (sendAll outs (statsFrame payload)).2.1 with
      | false => exact front.trans (List.prefix_append _ _)
      | true =>
          simp only [Bool.not_true, Bool.false_eq_true, if_false]
          rw [whole all]
          exact (List.prefix_append_right_inj _).2 (ih _)

theorem streamFrames_whole (payloads : List (List Char)) {outs : List Nat}
    (taken : ∀ n ∈ outs, 0 < n)
    (enough : (frames (payloads.map statsMessage)).length ≤ outs.length) :
    streamFrames payloads outs = frames (payloads.map statsMessage) := by
  induction payloads generalizing outs with
  | nil => rfl
  | cons payload payloads ih =>
      have text : frames ((payload :: payloads).map statsMessage) =
          statsFrame payload ++ frames (payloads.map statsMessage) := by
        rw [statsFrame_eq]
        rfl
      rw [text, List.length_append] at enough
      obtain ⟨all, rest, left⟩ :=
        sendAll_taken outs taken (by omega : (statsFrame payload).length ≤ outs.length)
      have first := (sendAll_front outs (statsFrame payload)).2.1 all
      rw [text, streamFrames]
      simp only [all, Bool.not_true, Bool.false_eq_true, if_false]
      rw [first, ih rest (by omega)]

theorem streamLines_plain : ∀ line ∈ streamLines, line ≠ [] ∧ '\r' ∉ line := by
  decide

theorem streamLines_type : fieldValue typeName streamLines = some streamType := by
  decide

/-- Behind a whole header block the frames are read. -/
theorem dispatched_block (behind : List Char) :
    dispatched (blockText streamLines ++ behind) = some (Theory.EventStream.read behind) := by
  unfold dispatched
  rw [readLines_block streamLines_plain]
  show ((fieldValue typeName streamLines).bind fun contentType => _) = _
  rw [streamLines_type]
  rfl

/-- A block that breaks off is not one. -/
theorem readLines_broken {part : List Char} (front : part <+: blockText streamLines)
    (short : part ≠ blockText streamLines) : readLines [] part = none := by
  obtain ⟨more, whole⟩ := front
  cases read : readLines [] part with
  | none => rfl
  | some block =>
      have all := readLines_block streamLines_plain []
      rw [List.append_nil, ← whole, readLines_append read more] at all
      have behind := (List.append_eq_nil_iff.1 (Prod.mk.inj (Option.some.inj all)).2).2
      rw [behind, List.append_nil] at whole
      exact absurd whole short

/-- **A browser sees the payloads of the first frames.**  Whatever the counters are at each turn
and wherever the network breaks off, what is dispatched is the messages of the first `k` turns,
and all of them if no `send` fails; and each of them parses to what `statsTree` says of its turn,
the counters among it. -/
theorem stream_dispatched (lives : List (Live β)) (outs : List Nat) :
    (∀ messages, dispatched (serveEventStream (lives.map apiStatsJson) outs) = some messages →
      ∃ k ≤ lives.length,
        messages = (lives.take k).map fun live => statsMessage (apiStatsJson live)) ∧
      ((∀ n ∈ outs, 0 < n) →
        (blockText streamLines).length +
            (frames (lives.map fun live => statsMessage (apiStatsJson live))).length ≤
          outs.length →
        dispatched (serveEventStream (lives.map apiStatsJson) outs) =
          some (lives.map fun live => statsMessage (apiStatsJson live))) ∧
      ∀ live : Live β, Text.jsonParse (apiStatsJson live) = some (Text.meaning (statsTree live)) ∧
        (Text.meaning (statsTree live)).find "captured".toList =
          some (.number (Scenario.toDouble live.app.statsCapturedTotal)) ∧
        (Text.meaning (statsTree live)).find "sent".toList =
          some (.number (Scenario.toDouble live.app.statsSentTotal)) ∧
        (Text.meaning (statsTree live)).find "capturing".toList =
          some (.bool live.app.capturing) := by
  have messages : (lives.map apiStatsJson).map statsMessage =
      lives.map fun live => statsMessage (apiStatsJson live) := List.map_map
  have fit : ∀ m ∈ lives.map fun live => statsMessage (apiStatsJson live), m.Fits := by
    intro m member
    obtain ⟨live, -, rfl⟩ := List.mem_map.1 member
    exact statsMessage_fits live
  obtain ⟨front, whole, back⟩ := sendAll_front outs (blockText streamLines)
  refine ⟨fun seen read => ?_, fun taken enough => ?_, fun live => ?_⟩
  · unfold serveEventStream at read
    cases all : (sendAll outs (blockText streamLines)).2.1 with
    | false =>
        have short : (sendAll outs (blockText streamLines)).1 ≠ blockText streamLines := by
          intro same
          exact absurd (back same) (by simp [all])
        simp only [all, Bool.not_false, if_true] at read
        unfold dispatched at read
        rw [readLines_broken front short] at read
        cases read
    | true =>
        simp only [all, Bool.not_true, Bool.false_eq_true, if_false] at read
        rw [whole all, dispatched_block] at read
        have part := streamFrames_front (lives.map apiStatsJson)
          (sendAll outs (blockText streamLines)).2.2
        rw [messages] at part
        obtain ⟨k, le, readBack, -, -⟩ := Theory.EventStream.read_front fit part
        rw [List.length_map] at le
        refine ⟨k, le, ?_⟩
        rw [← Option.some.inj read, readBack, List.map_take]
  · obtain ⟨all, rest, left⟩ :=
      sendAll_taken outs taken (by omega : (blockText streamLines).length ≤ outs.length)
    have frames_ := streamFrames_whole (lives.map apiStatsJson) rest (by rw [messages]; omega)
    rw [messages] at frames_
    unfold serveEventStream
    simp only [all, Bool.not_true, Bool.false_eq_true, if_false]
    rw [whole all, frames_, dispatched_block]
    obtain ⟨k, -, readBack, -, complete⟩ :=
      Theory.EventStream.read_front fit (List.prefix_refl _)
    rw [readBack, complete rfl, List.take_length]
  · exact ⟨Control.jsonParse_apiStatsJson live, Control.find_counters live⟩

/-- Two turns with three packets in between. -/
def twoTurns : List (Live Unit) :=
  [{ app := idleApp, now := 0, pcapActive := false, replayRead := 0 },
    { app := { idleApp with capturing := true, statsCapturedTotal := 3 }
      now := 200, pcapActive := true, replayRead := 0 }]

/-- A client that takes one byte at a time. -/
def slowly : List Nat :=
  List.replicate ((blockText streamLines).length +
    (frames (twoTurns.map fun live => statsMessage (apiStatsJson live))).length) 1

theorem stream_dispatched_slowly :
    dispatched (serveEventStream (twoTurns.map apiStatsJson) slowly) =
      some (twoTurns.map fun live => statsMessage (apiStatsJson live)) := by
  have taken : ∀ n ∈ slowly, 0 < n := by
    intro n member
    rw [List.eq_of_mem_replicate member]
    exact Nat.one_pos
  exact (stream_dispatched twoTurns slowly).2.1 taken (List.length_replicate).ge

end Clumsy.Http
