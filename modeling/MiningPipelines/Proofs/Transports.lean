import Mathlib
import MiningPipelines.Grpc
import MiningPipelines.Proofs.Agreement
import MiningPipelines.Proofs.Framing
import MiningPipelines.Proofs.ProtoText

/-!
# One run over two transports

An engine that answers in binary messages and one that answers with the same messages on lines
show a run the same stream (`transports_agree`). The lines are those of `Wire.Message.line`. Text
carries a message if it carries the floats in it, and if the message nests no deeper than the
reader goes.
-/

namespace MiningPipelines

namespace Wire

/-- The message on a line. -/
def Message.line (m : Message) : Bytes := bytesOfText m.toDocument.print ++ [Frame.lineFeed]

/-- The body with a line for each message. -/
def Message.body (messages : List Message) : Bytes := messages.flatMap line

variable {m : Message}

theorem Message.decode_line (h : ∀ x ∈ m.pieces, x.Writable)
    (hdepth : m.toDocument.depth ≤ Document.maxDepth) : Frame.decode m.line = .ok m := by
  obtain ⟨hlegible, hread⟩ := Message.ofDocument?_asRead h
  have hm : Message.ofDocument? m.toDocument.asRead = some m := hread (Nat.le_succ_of_le hdepth)
  rw [Frame.decode, line, Document.parse_print hlegible hdepth rfl, Option.bind_some, hm]

theorem Message.isLine_line (h : ∀ x ∈ m.pieces, x.Writable) : Frame.IsLine m.line :=
  ⟨_, rfl, fun hmem =>
    absurd (Document.noControl_print (Message.ofDocument?_asRead h).1 _ hmem) (by decide)⟩

theorem Message.line_not_blank (m : Message) : m.line.all Frame.isBlankByte = false := by
  rw [line, toDocument, Document.bytesOfText_print_object]
  rfl

/-- A body of lines, however it arrives, gives the messages. -/
theorem Message.items_of_body {messages : List Message}
    (h : ∀ m ∈ messages, ∀ x ∈ m.pieces, x.Writable)
    (hdepth : ∀ m ∈ messages, m.toDocument.depth ≤ Document.maxDepth) {chunks : List Bytes}
    (hchunks : chunks.flatten = body messages) :
    Frame.items chunks false = messages.map .ok := by
  have hsplit : Frame.Split chunks.flatten (messages.map line) [] := by
    refine ⟨?_, List.forall_mem_map.2 fun m hm => isLine_line (h m hm), List.not_mem_nil⟩
    rw [hchunks, body, List.append_nil]
    rfl
  have hblank : (messages.map line).filter (fun line => !line.all Frame.isBlankByte) =
      messages.map line :=
    List.filter_eq_self.2 (List.forall_mem_map.2 fun m _ => by rw [m.line_not_blank]; rfl)
  have htail : Frame.itemsOf [[]] = [] := rfl
  have hbody : Frame.body chunks false = chunks.map some := List.append_nil _
  rw [Frame.items, hbody, hsplit.framed.ended, htail, List.append_nil, Frame.itemsOf, hblank,
    List.map_map]
  exact List.map_congr_left fun m hm => decode_line (h m hm) (hdepth m hm)

end Wire

/-- The stream of messages that arrive in binary form. -/
def Proto.stream (messages : List Proto.Message) : Opening :=
  .opened (messages.map fun m => .item (.ok m.toWire))

/-- A frame that is a message is received. -/
theorem Grpc.map_decode {frames : List Bytes} {messages : List Proto.Message}
    (h : frames.map Proto.Message.parse = messages.map some) :
    frames.map decode = messages.map fun m => .ok m.toWire := by
  induction frames generalizing messages with
  | nil =>
    obtain rfl := List.map_eq_nil_iff.1 h.symm
    rfl
  | cons frame frames ih =>
    obtain ⟨m, messages, rfl, hm, hrest⟩ := List.map_eq_cons_iff.1 h.symm
    have hframe : decode frame = .ok m.toWire := by rw [decode, ← hm, ← m.receive_eq]
    rw [List.map_cons, List.map_cons, hframe, ih hrest.symm]

theorem Grpc.opening_of_frames {frames : List Bytes} {messages : List Proto.Message}
    (h : frames.map Proto.Message.parse = messages.map some) :
    opening ⟨frames, .ok⟩ = Proto.stream messages := by
  have hok : Status.ok.isOk = true := rfl
  rw [opening, items, hok, map_decode h, Proto.stream]
  simp

/-- Messages with finite floats are received without a fault, whatever is left out in them, in
binary form or on lines that arrive in any chunks, and a run goes the same way over both streams.
Numbers in JSON text have to be read as they were, and messages to nest no deeper than the reader
goes. -/
theorem transports_agree (messages : List Proto.Message)
    (hfinite : ∀ m ∈ messages, ∀ x ∈ m.floats, x.isFinite)
    (hrereads : ∀ m ∈ messages, ∀ x ∈ m.floats, x.isFinite → x.Rereads)
    (hdepth : ∀ m ∈ messages, m.toWire.toDocument.depth ≤ Document.maxDepth) :
    messages.map Proto.Message.receive = messages.map (fun m => .ok m.toWire) ∧
    (∀ frames : List Bytes, frames.map Proto.Message.parse = messages.map some →
      frames.map Grpc.decode = messages.map (fun m => .ok m.toWire) ∧
        Grpc.opening ⟨frames, .ok⟩ = Proto.stream messages) ∧
    ∀ chunks : List Bytes, chunks.flatten = Wire.Message.body (messages.map Proto.Message.toWire) →
      Frame.items chunks false = messages.map (fun m => .ok m.toWire) ∧
      ∀ {σ τ : Type} (x : Executor σ) (y : Executor τ), x.mode = y.mode → x.handlers = y.handlers →
        ∀ (runId : String) (parts : Pipeline) (context : Context) (signal : Signal) (state : σ)
          (state' : τ),
          (x.transport (Executor.request parts context)).opening = Proto.stream messages →
          (y.transport (Executor.request parts context)).opening =
            .opened ((Frame.items chunks false).map .item) →
          (x.execute runId parts context signal state).Agrees
            (y.execute runId parts context signal state') := by
  refine ⟨List.map_congr_left fun m _ => m.receive_eq,
    fun frames hframes => ⟨Grpc.map_decode hframes, Grpc.opening_of_frames hframes⟩,
    fun chunks hchunks => ?_⟩
  have hwritable : ∀ w ∈ messages.map Proto.Message.toWire, ∀ x ∈ w.pieces, x.Writable :=
    List.forall_mem_map.2 fun m hm => Proto.Message.writable_pieces fun x hx =>
      hrereads m hm x hx (hfinite m hm x hx)
  have hitems := Wire.Message.items_of_body hwritable (List.forall_mem_map.2 hdepth) hchunks
  rw [List.map_map] at hitems
  refine ⟨hitems, fun x y hmode hhandlers runId parts context signal state state' hx hy => ?_⟩
  refine Executor.execute_agrees hmode hhandlers runId parts context signal state state' ?_
  rw [hx, hy, hitems, Proto.stream, List.map_map]
  rfl

/-- A body cut into single bytes shows the same run as the binary messages do. -/
theorem transports_agree_bytewise :
    let messages : List Proto.Message :=
      [⟨some (.log "é\n")⟩,
        ⟨some (.result ⟨[⟨some "k", some ⟨some (.float ⟨0x3fc00000⟩)⟩⟩], some "a"⟩)⟩,
        ⟨some (.final (some (.success "g")))⟩]
    let frames := messages.map Proto.Message.print
    let chunks := (Wire.Message.body (messages.map Proto.Message.toWire)).map ([·])
    let parts : Pipeline := [.fetch "k" none (some (.named "f"))]
    let x : Executor Unit :=
      ⟨fun _ => ⟨[], Grpc.opening ⟨frames, .ok⟩⟩, .positional, .discarding, ⟨fun _ _ _ => .ok⟩⟩
    let y : Executor (List Event) :=
      ⟨fun _ => ⟨[], .opened ((Frame.items chunks false).map .item)⟩, .positional, .collecting,
        ⟨fun _ _ _ => .ok⟩⟩
    frames.map Grpc.decode = messages.map (fun m => .ok m.toWire) ∧
      Frame.items chunks false = messages.map (fun m => .ok m.toWire) ∧
      (x.execute "r" parts .empty .armed ()).Agrees (y.execute "r" parts .empty .armed []) ∧
      (y.execute "r" parts .empty .armed []).outcome = .succeeded "g" 1 := by
  intro messages frames chunks parts x y
  have hfloats : ∀ m ∈ messages, ∀ x ∈ m.floats, x = ⟨0x3fc00000⟩ := by decide
  have hrereads : (⟨0x3fc00000⟩ : Single).Rereads := by decide +kernel
  have hdepth : ∀ m ∈ messages, m.toWire.toDocument.depth ≤ Document.maxDepth := by decide
  have hframes : frames.map Proto.Message.parse = messages.map some := by cbv
  have hchunks : chunks.flatten = Wire.Message.body (messages.map Proto.Message.toWire) :=
    List.flatMap_singleton' _
  obtain ⟨-, hbinary, htext⟩ := transports_agree messages
    (fun m hm x hx => hfloats m hm x hx ▸ rfl)
    (fun m hm x hx _ => hfloats m hm x hx ▸ hrereads) hdepth
  obtain ⟨hdecode, hopening⟩ := hbinary frames hframes
  obtain ⟨hitems, hagree⟩ := htext chunks hchunks
  have hreport := hagree x y rfl rfl "r" parts .empty .armed () [] hopening rfl
  have houtcome : (x.execute "r" parts .empty .armed ()).outcome = .succeeded "g" 1 := by
    decide +kernel
  exact ⟨hdecode, hitems, hreport, hreport.outcome ▸ houtcome⟩

end MiningPipelines
