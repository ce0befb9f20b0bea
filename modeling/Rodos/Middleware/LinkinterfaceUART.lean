import Rodos.S3p.RoundTrip

/-! `LinkinterfaceUART` of the Python middleware: S3P frames as it sends and receives them, beside
the synchronous sender and receiver of the nodes. -/
namespace Rodos.Middleware
open Library S3p

namespace LinkinterfaceUART

def MARK : UInt8 := 0xFE
def BOM : UInt8 := 0x02
def EOM : UInt8 := 0x03
def STUFFING : UInt8 := 0x7E

/-- What the receiving thread keeps: the queue and the variables of its loops. -/
structure ReceiveLoop where
  messageQueue : List (List UInt8) := []
  inputbuffer : List UInt8 := []
  lastWasMark : Bool := false

namespace ReceiveLoop

/-- One byte from the serial line. Behind a message the outer loop resets both variables. -/
def read (self : ReceiveLoop) (b : UInt8) : ReceiveLoop :=
  if b = MARK then { self with lastWasMark := true }
  else if b = BOM ∧ self.lastWasMark then { self with lastWasMark := false }
  else if b = STUFFING ∧ self.lastWasMark then
    { self with lastWasMark := false, inputbuffer := self.inputbuffer ++ [0xFE] }
  else if b = EOM ∧ self.lastWasMark then
    { messageQueue := self.messageQueue ++ [self.inputbuffer] }
  else { self with inputbuffer := self.inputbuffer ++ [b] }

def receive (self : ReceiveLoop) (line : List UInt8) : ReceiveLoop := line.foldl read self

end ReceiveLoop

def toS3p (data : List UInt8) : List UInt8 :=
  let escapedData := data.flatMap fun b => if b = 0xFE then [0xFE, 0x7E] else [b]
  [0xFE, 0x02] ++ escapedData ++ [0xFE, 0x03]

/-! ### Lines -/

/-- The second byte of a code that is neither a frame mark nor a stuffed byte. -/
structure CommandByte where
  low : UInt8
  notBom : low ≠ 0x02
  notEom : low ≠ 0x03
  notStuffing : low ≠ 0x7E
  notMark : low ≠ 0xFE

inductive Item where
  | data (value : UInt8)
  | command (code : CommandByte)

def Item.bytes : Item → List UInt8
  | .data value => Sender.putDataByte value
  | .command code => [markByte, code.low]

/-- What the items carry for the application. -/
def payload (items : List Item) : List UInt8 :=
  items.flatMap fun
    | .data value => [value]
    | .command _ => []

/-- The line up to the end of a complete frame: what stands outside frames before it, the frames
that are given up for a new one, and the content of the last one. -/
structure Round where
  before : List Item
  aborted : List (List Item)
  content : List Item

namespace Round

def abortedBytes (aborted : List (List Item)) : List UInt8 :=
  aborted.flatMap fun items => Sender.putCommand S3p.BOM ++ items.flatMap Item.bytes

def bytes (self : Round) : List UInt8 :=
  self.before.flatMap Item.bytes ++ (abortedBytes self.aborted ++ (Sender.putCommand S3p.BOM ++
    (self.content.flatMap Item.bytes ++ Sender.putCommand S3p.EOM)))

end Round

/-- Behind the last complete frame there are only items outside frames. -/
structure Stream where
  rounds : List Round
  tail : List Item

def Stream.bytes (self : Stream) : List UInt8 :=
  self.rounds.flatMap Round.bytes ++ self.tail.flatMap Item.bytes

def messages (events : List Event) : List (List UInt8) :=
  events.flatMap fun
    | .message bytes => [bytes]
    | .command _ => []

/-! ### The receiver of the nodes -/

theorem lsb_code (low : UInt8) : lsb (COMMAND ||| low.toUInt16) = low := by
  apply UInt8.toBitVec_inj.mp
  apply BitVec.eq_of_getLsbD_eq
  intro bit hbit
  interval_cases bit <;> simp [lsb, COMMAND]

theorem CommandByte.ofCode (code : CommandByte) :
    Token.ofCode code.low = .command (COMMAND ||| code.low.toUInt16) := by
  have hdistinct : ∀ other : UInt16, code.low ≠ lsb other →
      COMMAND ||| code.low.toUInt16 ≠ other := by
    intro other hne hsame
    rw [← hsame, lsb_code] at hne
    exact hne rfl
  rw [Token.ofCode, if_neg (hdistinct S3p.BOM code.notBom), if_neg (hdistinct S3p.EOM code.notEom),
    if_neg (hdistinct STUFF code.notStuffing)]

def Item.token : Item → Token
  | .data value => .data value
  | .command code => .command (COMMAND ||| code.low.toUInt16)

theorem scan_item (item : Item) (line : List UInt8) :
    (nestedRead.scan false (item.bytes ++ line)).2 =
      item.token :: (nestedRead.scan false line).2 := by
  cases item with
  | data value =>
    exact congrArg Prod.snd (@Scanner.scan_encode nestedRead (.data value) trivial line)
  | command code =>
    rw [Item.bytes, List.cons_append, List.cons_append, List.nil_append,
      nestedRead.scan_code code.notMark, code.ofCode]
    rfl

theorem scan_items (items : List Item) (line : List UInt8) :
    (nestedRead.scan false (items.flatMap Item.bytes ++ line)).2 =
      items.map Item.token ++ (nestedRead.scan false line).2 := by
  induction items with
  | nil => rfl
  | cons item rest ih =>
    rw [List.flatMap_cons, List.append_assoc, scan_item, ih]
    rfl

theorem scan_bom (line : List UInt8) :
    (nestedRead.scan false (Sender.putCommand S3p.BOM ++ line)).2 =
      .bom :: (nestedRead.scan false line).2 :=
  congrArg Prod.snd (@Scanner.scan_encode nestedRead .bom trivial line)

theorem scan_eom (line : List UInt8) :
    (nestedRead.scan false (Sender.putCommand S3p.EOM ++ line)).2 =
      .eom :: (nestedRead.scan false line).2 :=
  congrArg Prod.snd (@Scanner.scan_encode nestedRead .eom trivial line)

section frame

variable {capacity : Nat}

/-- Items in an open frame, whose commands go elsewhere. -/
theorem run_content (items : List Item) (later : List Token) {bytes : List UInt8}
    (hbytes : bytes.length ≤ capacity) :
    messages (Frame.run capacity (some bytes) (items.map Item.token ++ later)) =
      messages (Frame.run capacity (some ((bytes ++ payload items).take capacity)) later) := by
  induction items generalizing bytes with
  | nil => rw [payload, List.flatMap_nil, List.append_nil, List.take_of_length_le hbytes]; rfl
  | cons item rest ih =>
    cases item with
    | command code => exact ih hbytes
    | data value =>
      have hshort : ((bytes ++ [value]).take capacity).length ≤ capacity := by simp
      have hrest := ih hshort
      rw [Frame.take_append_take, List.append_assoc] at hrest
      exact hrest

theorem run_outside (items : List Item) (later : List Token) :
    messages (Frame.run capacity none (items.map Item.token ++ later)) =
      messages (Frame.run capacity none later) := by
  induction items with
  | nil => rfl
  | cons item rest ih =>
    cases item with
    | command code => exact ih
    | data value => exact ih

/-- Frames that are given up deliver nothing. -/
theorem run_aborted (aborted : List (List Item)) (content : Frame.Content) (later : List Token) :
    messages (Frame.run capacity content
        (aborted.flatMap (fun items => .bom :: items.map Item.token) ++ .bom :: later)) =
      messages (Frame.run capacity (some []) later) := by
  induction aborted generalizing content with
  | nil => rfl
  | cons items rest ih =>
    rw [List.flatMap_cons, List.append_assoc]
    exact (run_content items _ (Nat.zero_le _)).trans (ih _)

end frame

def Round.tokens (self : Round) : List Token :=
  self.before.map Item.token ++ (self.aborted.flatMap (fun items => .bom :: items.map Item.token) ++
    .bom :: (self.content.map Item.token ++ [.eom]))

theorem scan_abortedBytes (aborted : List (List Item)) (line : List UInt8) :
    (nestedRead.scan false (Round.abortedBytes aborted ++ line)).2 =
      aborted.flatMap (fun items => .bom :: items.map Item.token) ++
        (nestedRead.scan false line).2 := by
  induction aborted with
  | nil => rfl
  | cons items rest ih =>
    rw [Round.abortedBytes, List.flatMap_cons, List.append_assoc, List.append_assoc, scan_bom,
      scan_items, ← Round.abortedBytes, ih, List.flatMap_cons, List.append_assoc, List.cons_append]

theorem Round.scan (self : Round) (line : List UInt8) :
    (nestedRead.scan false (self.bytes ++ line)).2 =
      self.tokens ++ (nestedRead.scan false line).2 := by
  rw [Round.bytes, List.append_assoc, List.append_assoc, List.append_assoc, List.append_assoc,
    scan_items, scan_abortedBytes, scan_bom, scan_items, scan_eom, Round.tokens, List.append_assoc,
    List.append_assoc, List.cons_append, List.append_assoc]
  rfl

/-- A node delivers the content of the complete frame, as far as it has room for it. -/
theorem Round.run_tokens (self : Round) (capacity : Nat) (later : List Token) :
    messages (Frame.run capacity none (self.tokens ++ later)) =
      (payload self.content).take capacity :: messages (Frame.run capacity none later) := by
  rw [Round.tokens, List.append_assoc, List.append_assoc, run_outside, List.cons_append,
    run_aborted, List.append_assoc, run_content _ _ (Nat.zero_le _)]
  rfl

/-- What a node delivers of the stream. -/
def Stream.delivered (self : Stream) (capacity : Nat) : List (List UInt8) :=
  self.rounds.map fun round => (payload round.content).take capacity

theorem messages_receiveSynchronous (stream : Stream) (maxLen : Int) (msg : Memory UInt8) :
    messages (receiveSynchronous maxLen msg stream.bytes) = stream.delivered maxLen.toNat := by
  obtain ⟨rounds, tail⟩ := stream
  rw [receiveSynchronous_scan]
  unfold Stream.bytes Stream.delivered
  induction rounds with
  | nil =>
    have htail := scan_items tail []
    rw [List.append_nil, nestedRead.scan_nil] at htail
    dsimp only
    rw [List.flatMap_nil, List.nil_append, htail, run_outside]
    rfl
  | cons round rest ih =>
    dsimp only at ih ⊢
    rw [List.flatMap_cons, List.append_assoc, round.scan, round.run_tokens, ih, List.map_cons]

/-! ### The receiver of the middleware -/

/-- Behind a pending mark: a data byte 3 is taken for the end of the frame. -/
inductive Exposed : List Item → Prop where
  | here {rest : List Item} : Exposed (.data 0x03 :: rest)
  | data {value : UInt8} {rest : List Item} (hkeeps : value ≠ 0x02 ∧ value ≠ 0x7E ∧ value ≠ 0xFE) :
      Exposed rest → Exposed (.data value :: rest)
  | command {code : CommandByte} {rest : List Item} : Exposed rest → Exposed (.command code :: rest)

/-- Such a byte stands behind a command, which leaves the mark pending. -/
inductive Misread : List Item → Prop where
  | behind {code : CommandByte} {rest : List Item} : Exposed rest → Misread (.command code :: rest)
  | later {item : Item} {rest : List Item} : Misread rest → Misread (item :: rest)

/-- The bytes that come into the buffer, from a state with or without a pending mark. -/
def buffered : Bool → List Item → List UInt8
  | _, [] => []
  | false, .data value :: rest => value :: buffered false rest
  | true, .data value :: rest =>
    if value = 0x02 then buffered false rest
    else if value = 0x7E ∨ value = 0xFE then 0xFE :: buffered false rest
    else value :: buffered true rest
  | _, .command code :: rest => code.low :: buffered true rest

namespace ReceiveLoop

variable {self : ReceiveLoop}

theorem receive_append (line later : List UInt8) :
    self.receive (line ++ later) = (self.receive line).receive later := List.foldl_append

theorem receive_items_cons (item : Item) (rest : List Item) :
    self.receive ((item :: rest).flatMap Item.bytes) =
      (self.receive item.bytes).receive (rest.flatMap Item.bytes) := receive_append _ _

@[simp] theorem receive_bom :
    self.receive (Sender.putCommand S3p.BOM) = { self with lastWasMark := false } := rfl

@[simp] theorem receive_eom :
    self.receive (Sender.putCommand S3p.EOM) =
      { messageQueue := self.messageQueue ++ [self.inputbuffer] } := rfl

theorem receive_stuffed : self.receive (Item.data 0xFE).bytes =
    { self with inputbuffer := self.inputbuffer ++ [0xFE], lastWasMark := false } := rfl

theorem receive_command (code : CommandByte) : self.receive (Item.command code).bytes =
    { self with inputbuffer := self.inputbuffer ++ [code.low], lastWasMark := true } := by
  show ((self.read MARK).read code.low) = _
  simp [read, MARK, BOM, STUFFING, EOM, code.notBom, code.notEom, code.notStuffing, code.notMark]

theorem receive_plain {value : UInt8} (hvalue : value ≠ 0xFE) :
    self.receive (Item.data value).bytes = self.read value := by
  rw [Item.bytes, putDataByte_plain hvalue]
  rfl

theorem read_unmarked {value : UInt8} (hvalue : value ≠ 0xFE) (hmark : self.lastWasMark = false) :
    self.read value = { self with inputbuffer := self.inputbuffer ++ [value] } := by
  simp [read, MARK, hvalue, hmark]

theorem read_marked {value : UInt8} (hkeeps : value ≠ 0x02 ∧ value ≠ 0x7E ∧ value ≠ 0xFE)
    (hvalue : value ≠ 0x03) :
    self.read value = { self with inputbuffer := self.inputbuffer ++ [value] } := by
  simp [read, MARK, BOM, STUFFING, EOM, hkeeps, hvalue]

theorem receive_unmarked (queue : List (List UInt8)) (buffer : List UInt8) (value : UInt8) :
    receive ⟨queue, buffer, false⟩ (Item.data value).bytes = ⟨queue, buffer ++ [value], false⟩ := by
  by_cases hvalue : value = 0xFE
  · rw [hvalue, receive_stuffed]
  · rw [receive_plain hvalue, read_unmarked hvalue rfl]

/-- Behind a pending mark 2 is lost, and both 0x7E and a stuffed 0xFE come in as 0xFE. -/
theorem receive_reset (queue : List (List UInt8)) (buffer : List UInt8) {value : UInt8}
    (hreset : ¬ (value ≠ 0x02 ∧ value ≠ 0x7E ∧ value ≠ 0xFE)) :
    receive ⟨queue, buffer, true⟩ (Item.data value).bytes =
      ⟨queue, buffer ++ if value = 0x02 then [] else [0xFE], false⟩ := by
  by_cases hbom : value = 0x02
  · subst hbom
    rw [if_pos rfl, List.append_nil]
    rfl
  · have hmarked : value = 0x7E ∨ value = 0xFE := by tauto
    rw [if_neg hbom]
    obtain rfl | rfl := hmarked
    · rfl
    · exact receive_stuffed

/-- Nothing is taken out of the queue. -/
theorem messageQueue_le_receive (line : List UInt8) :
    self.messageQueue <+: (self.receive line).messageQueue := by
  induction line generalizing self with
  | nil => exact List.prefix_refl _
  | cons b line ih =>
    apply List.IsPrefix.trans _ (@ih (self.read b))
    unfold read
    split_ifs
    · exact List.prefix_refl _
    · exact List.prefix_refl _
    · exact List.prefix_refl _
    · exact List.prefix_append _ _
    · exact List.prefix_refl _

theorem length_messageQueue_receive (line : List UInt8) :
    self.messageQueue.length ≤ (self.receive line).messageQueue.length :=
  (messageQueue_le_receive line).length_le

/-- Without a misread byte the items come into the buffer and nothing into the queue. -/
theorem receive_items {items : List Item} (hread : ¬ Misread items)
    (hmark : self.lastWasMark = true → ¬ Exposed items) :
    ∃ lastWasMark, self.receive (items.flatMap Item.bytes) =
      ⟨self.messageQueue, self.inputbuffer ++ buffered self.lastWasMark items, lastWasMark⟩ := by
  induction items generalizing self with
  | nil => exact ⟨self.lastWasMark, by simp [receive, buffered]⟩
  | cons item rest ih =>
    obtain ⟨queue, buffer, mark⟩ := self
    have hrest : ¬ Misread rest := fun h => hread (.later h)
    rw [receive_items_cons]
    cases item with
    | command code =>
      have hcovered : ¬ Exposed rest := fun h => hread (.behind h)
      rw [receive_command]
      obtain ⟨mark, hreceived⟩ := @ih ⟨queue, buffer ++ [code.low], true⟩ hrest fun _ => hcovered
      refine ⟨mark, hreceived.trans ?_⟩
      simp [buffered]
    | data value =>
      cases mark with
      | false =>
        rw [receive_unmarked]
        obtain ⟨mark, hreceived⟩ := @ih ⟨queue, buffer ++ [value], false⟩ hrest nofun
        refine ⟨mark, hreceived.trans ?_⟩
        simp [buffered]
      | true =>
        by_cases hkeeps : value ≠ 0x02 ∧ value ≠ 0x7E ∧ value ≠ 0xFE
        · have heom : value ≠ 0x03 := by
            rintro rfl
            exact hmark rfl .here
          have hcovered : ¬ Exposed rest := fun h => hmark rfl (.data hkeeps h)
          rw [receive_plain hkeeps.2.2, read_marked hkeeps heom]
          obtain ⟨mark, hreceived⟩ := @ih ⟨queue, buffer ++ [value], true⟩ hrest fun _ => hcovered
          refine ⟨mark, hreceived.trans ?_⟩
          simp [buffered, hkeeps]
        · rw [receive_reset _ _ hkeeps]
          obtain ⟨mark, hreceived⟩ := @ih
            ⟨queue, buffer ++ if value = 0x02 then [] else [0xFE], false⟩ hrest nofun
          refine ⟨mark, hreceived.trans ?_⟩
          by_cases hbom : value = 0x02
          · simp [buffered, hbom]
          · have hmarked : value = 0x7E ∨ value = 0xFE := by tauto
            simp [buffered, hbom, hmarked]

theorem receive_items_unmarked {items : List Item} (hread : ¬ Misread items)
    (queue : List (List UInt8)) (buffer : List UInt8) :
    ∃ lastWasMark, receive ⟨queue, buffer, false⟩ (items.flatMap Item.bytes) =
      ⟨queue, buffer ++ buffered false items, lastWasMark⟩ :=
  @receive_items ⟨queue, buffer, false⟩ items hread nofun

/-- A misread byte puts a message into the queue. -/
theorem length_messageQueue_of_misread {items : List Item}
    (h : Misread items ∨ self.lastWasMark = true ∧ Exposed items) :
    self.messageQueue.length < (self.receive (items.flatMap Item.bytes)).messageQueue.length := by
  induction items generalizing self with
  | nil =>
    obtain hmisread | ⟨-, hexposed⟩ := h
    · cases hmisread
    · cases hexposed
  | cons item rest ih =>
    obtain ⟨queue, buffer, mark⟩ := self
    rw [receive_items_cons]
    cases item with
    | command code =>
      rw [receive_command]
      have hrest : Misread rest ∨ Exposed rest := by
        obtain (hexposed | hmisread) | ⟨-, hexposed | hexposed | hexposed⟩ := h
        · exact .inr hexposed
        · exact .inl hmisread
        · exact .inr hexposed
      exact @ih ⟨queue, buffer ++ [code.low], true⟩ (hrest.imp_right fun h => ⟨rfl, h⟩)
    | data value =>
      have hrest : Misread rest ∨ mark = true ∧ Exposed (.data value :: rest) := by
        obtain (_ | hmisread) | hexposed := h
        · exact .inl hmisread
        · exact .inr hexposed
      cases mark with
      | false =>
        rw [receive_unmarked]
        exact @ih ⟨queue, buffer ++ [value], false⟩ (hrest.imp_right fun h => absurd h.1 nofun)
      | true =>
        by_cases heom : value = 0x03
        · subst heom
          have hqueued : receive ⟨queue, buffer, true⟩ (Item.data 0x03).bytes =
              { messageQueue := queue ++ [buffer] } := rfl
          rw [hqueued]
          apply lt_of_lt_of_le _ (length_messageQueue_receive _)
          simp
        by_cases hkeeps : value ≠ 0x02 ∧ value ≠ 0x7E ∧ value ≠ 0xFE
        · rw [receive_plain hkeeps.2.2, read_marked hkeeps heom]
          apply @ih ⟨queue, buffer ++ [value], true⟩
          refine hrest.imp_right fun h => ⟨rfl, ?_⟩
          obtain ⟨-, _ | ⟨-, hexposed⟩⟩ := h
          · exact absurd rfl heom
          · exact hexposed
        · rw [receive_reset _ _ hkeeps]
          apply @ih ⟨queue, buffer ++ if value = 0x02 then [] else [0xFE], false⟩
          refine .inl (hrest.resolve_right ?_)
          rintro ⟨-, _ | ⟨hvalue, -⟩⟩
          · exact heom rfl
          · exact hkeeps hvalue

end ReceiveLoop

/-! ### Bytes in the buffer -/

def Item.isData : Item → Bool
  | .data _ => true
  | .command _ => false

theorem payload_data (value : UInt8) (rest : List Item) :
    payload (.data value :: rest) = value :: payload rest := rfl

theorem payload_command (code : CommandByte) (rest : List Item) :
    payload (.command code :: rest) = payload rest := rfl

/-- The middleware loses at most the byte that ends a pending mark. -/
theorem length_payload_le (items : List Item) (mark : Bool) :
    (payload items).length ≤ (buffered mark items).length + mark.toNat := by
  induction items generalizing mark with
  | nil => exact Nat.zero_le _
  | cons item rest ih =>
    have hunmarked := ih false
    have hmarked := ih true
    rw [Bool.toNat_false] at hunmarked
    rw [Bool.toNat_true] at hmarked
    cases item with
    | command code =>
      rw [payload_command]
      simp only [buffered, List.length_cons]
      omega
    | data value =>
      rw [payload_data, List.length_cons]
      cases mark with
      | false => simp only [buffered, List.length_cons, Bool.toNat_false]; omega
      | true =>
        simp only [buffered, Bool.toNat_true]
        split_ifs
        · omega
        · rw [List.length_cons]; omega
        · rw [List.length_cons]; omega

theorem buffered_ne_nil {items : List Item} (hitems : items ≠ []) : buffered false items ≠ [] := by
  cases items with
  | nil => exact absurd rfl hitems
  | cons item rest => cases item <;> exact List.cons_ne_nil _ _

/-- A command in front shifts the bytes behind it, and the 2 that would make up for its length is a
byte of the message. -/
theorem cons_buffered_ne_payload {byte : UInt8} {items : List Item}
    (hkeeps : byte ≠ 0x02 ∧ byte ≠ 0x7E ∧ byte ≠ 0xFE) (hcovered : ¬ Exposed items) :
    byte :: buffered true items ≠ payload items := by
  induction items generalizing byte with
  | nil => exact List.cons_ne_nil _ _
  | cons item rest ih =>
    cases item with
    | command code =>
      intro hsame
      have hlength := congrArg List.length hsame
      have hle := length_payload_le rest true
      rw [payload_command] at hlength
      simp only [buffered, List.length_cons] at hlength
      rw [Bool.toNat_true] at hle
      omega
    | data value =>
      rw [payload_data]
      intro hsame
      obtain ⟨rfl, hrest⟩ := List.cons.inj hsame
      have hshown : buffered true (.data byte :: rest) = byte :: buffered true rest := by
        simp [buffered, hkeeps]
      rw [hshown] at hrest
      exact ih hkeeps (fun hexposed => hcovered (.data hkeeps hexposed)) hrest

theorem buffered_eq_payload_iff {items : List Item} (hread : ¬ Misread items) :
    buffered false items = payload items ↔ ∀ item ∈ items, item.isData := by
  induction items with
  | nil => simp [buffered, payload]
  | cons item rest ih =>
    cases item with
    | data value =>
      have hrest := ih fun h => hread (.later h)
      simp only [buffered, payload_data, List.cons.injEq, true_and, hrest, List.forall_mem_cons,
        Item.isData]
    | command code =>
      have hne := cons_buffered_ne_payload ⟨code.notBom, code.notStuffing, code.notMark⟩
        fun hexposed => hread (.behind hexposed)
      simp only [buffered, payload_command, hne, List.forall_mem_cons, Item.isData,
        Bool.false_eq_true, false_and]

/-! ### Whole frames -/

namespace Round

/-- No byte of the round is misread. -/
def Clean (self : Round) : Prop :=
  ¬ Misread self.before ∧ (∀ items ∈ self.aborted, ¬ Misread items) ∧ ¬ Misread self.content

def buffered (self : Round) : List UInt8 :=
  LinkinterfaceUART.buffered false self.before ++
    (self.aborted.flatMap (LinkinterfaceUART.buffered false) ++
      LinkinterfaceUART.buffered false self.content)

/-- Nothing but the data bytes of one frame, and no more of them than a node has room for. -/
def Plain (capacity : Nat) (self : Round) : Prop :=
  self.before = [] ∧ (∀ items ∈ self.aborted, items = []) ∧
    (∀ item ∈ self.content, item.isData) ∧ (payload self.content).length ≤ capacity

variable {self : Round} {queue : List (List UInt8)} {buffer : List UInt8}

theorem receive_abortedBytes {aborted : List (List Item)}
    (hread : ∀ items ∈ aborted, ¬ Misread items) (mark : Bool) :
    ∃ lastWasMark, ReceiveLoop.receive ⟨queue, buffer, mark⟩ (abortedBytes aborted) =
      ⟨queue, buffer ++ aborted.flatMap (LinkinterfaceUART.buffered false), lastWasMark⟩ := by
  induction aborted generalizing buffer mark with
  | nil => exact ⟨mark, by simp [abortedBytes, ReceiveLoop.receive]⟩
  | cons items rest ih =>
    obtain ⟨hitems, hrest⟩ := List.forall_mem_cons.mp hread
    obtain ⟨after, hafter⟩ := ReceiveLoop.receive_items_unmarked hitems queue buffer
    obtain ⟨later, hlater⟩ := @ih (buffer ++ LinkinterfaceUART.buffered false items) hrest after
    refine ⟨later, ?_⟩
    rw [abortedBytes, List.flatMap_cons, ← abortedBytes, ReceiveLoop.receive_append,
      ReceiveLoop.receive_append, ReceiveLoop.receive_bom]
    dsimp only
    rw [hafter, hlater, List.flatMap_cons, List.append_assoc]

theorem Clean.receive (h : self.Clean) :
    ReceiveLoop.receive ⟨queue, [], false⟩ self.bytes = ⟨queue ++ [self.buffered], [], false⟩ := by
  obtain ⟨hbefore, haborted, hcontent⟩ := h
  obtain ⟨first, hfirst⟩ := ReceiveLoop.receive_items_unmarked hbefore queue []
  obtain ⟨second, hsecond⟩ := @receive_abortedBytes queue _ _ haborted first
  obtain ⟨third, hthird⟩ := ReceiveLoop.receive_items_unmarked hcontent queue _
  rw [bytes, ReceiveLoop.receive_append, hfirst, ReceiveLoop.receive_append, hsecond,
    ReceiveLoop.receive_append, ReceiveLoop.receive_bom, ReceiveLoop.receive_append, hthird,
    ReceiveLoop.receive_eom]
  simp [buffered]

theorem length_messageQueue_of_aborted {aborted : List (List Item)} {loop : ReceiveLoop}
    (h : ∃ items ∈ aborted, Misread items) :
    loop.messageQueue.length < (loop.receive (abortedBytes aborted)).messageQueue.length := by
  induction aborted generalizing loop with
  | nil => obtain ⟨_, hnone, _⟩ := h; cases hnone
  | cons items rest ih =>
    rw [abortedBytes, List.flatMap_cons, ← abortedBytes, ReceiveLoop.receive_append,
      ReceiveLoop.receive_append, ReceiveLoop.receive_bom]
    obtain ⟨misreadItems, hmem, hmisread⟩ := h
    obtain rfl | hrest := List.mem_cons.mp hmem
    · exact lt_of_lt_of_le
        (@ReceiveLoop.length_messageQueue_of_misread { loop with lastWasMark := false } _
          (.inl hmisread)) (ReceiveLoop.length_messageQueue_receive _)
    · exact lt_of_le_of_lt
        (@ReceiveLoop.length_messageQueue_receive { loop with lastWasMark := false } _)
        (ih ⟨misreadItems, hrest, hmisread⟩)

/-- A misread byte adds a message to the one of the complete frame. -/
theorem receive_of_not_clean (h : ¬ self.Clean) :
    ∃ queue', ReceiveLoop.receive ⟨queue, [], false⟩ self.bytes = { messageQueue := queue' } ∧
      queue.length + 2 ≤ queue'.length := by
  rw [bytes, ReceiveLoop.receive_append, ReceiveLoop.receive_append, ReceiveLoop.receive_append,
    ReceiveLoop.receive_append, ReceiveLoop.receive_bom, ReceiveLoop.receive_eom]
  refine ⟨_, rfl, ?_⟩
  generalize hfirst : ReceiveLoop.receive ⟨queue, [], false⟩
    (self.before.flatMap Item.bytes) = first
  generalize hsecond : first.receive (abortedBytes self.aborted) = second
  have hbefore : queue.length ≤ first.messageQueue.length := by
    rw [← hfirst]
    exact @ReceiveLoop.length_messageQueue_receive ⟨queue, [], false⟩ _
  have haborted : first.messageQueue.length ≤ second.messageQueue.length := by
    rw [← hsecond]
    exact ReceiveLoop.length_messageQueue_receive _
  have hcontent := @ReceiveLoop.length_messageQueue_receive { second with lastWasMark := false }
    (self.content.flatMap Item.bytes)
  rw [List.length_append, List.length_singleton]
  by_cases hreadBefore : Misread self.before
  · have hlonger := @ReceiveLoop.length_messageQueue_of_misread ⟨queue, [], false⟩ _
      (.inl hreadBefore)
    rw [hfirst] at hlonger
    dsimp only at hlonger hcontent
    omega
  by_cases hreadAborted : ∃ items ∈ self.aborted, Misread items
  · have hlonger := @length_messageQueue_of_aborted _ first hreadAborted
    rw [hsecond] at hlonger
    dsimp only at hcontent
    omega
  · have hreadContent : Misread self.content := by
      by_contra hread
      exact h ⟨hreadBefore, fun items hitems hmisread => hreadAborted ⟨items, hitems, hmisread⟩,
        hread⟩
    have hlonger := @ReceiveLoop.length_messageQueue_of_misread
      { second with lastWasMark := false } _ (.inl hreadContent)
    dsimp only at hlonger
    omega

theorem not_misread_of_data {items : List Item} (h : ∀ item ∈ items, item.isData) :
    ¬ Misread items := by
  intro hmisread
  induction hmisread with
  | behind _ => exact absurd (h _ List.mem_cons_self) nofun
  | later _ ih => exact ih fun item hitem => h item (List.mem_cons_of_mem _ hitem)

theorem Plain.clean {capacity : Nat} (h : self.Plain capacity) : self.Clean := by
  obtain ⟨hbefore, haborted, hcontent, -⟩ := h
  refine ⟨?_, fun items hitems => ?_, not_misread_of_data hcontent⟩
  · rw [hbefore]
    nofun
  · rw [haborted items hitems]
    nofun

/-- The middleware reads no round as a node does but those that have nothing else to read. -/
theorem Clean.buffered_eq_iff (h : self.Clean) (capacity : Nat) :
    self.buffered = (payload self.content).take capacity ↔ self.Plain capacity := by
  constructor
  · intro hsame
    have hlength := congrArg List.length hsame
    have hle := length_payload_le self.content false
    simp only [buffered, List.length_append, List.length_take] at hlength
    rw [Bool.toNat_false] at hle
    have hbefore : LinkinterfaceUART.buffered false self.before = [] :=
      List.eq_nil_of_length_eq_zero (by omega)
    have haborted : self.aborted.flatMap (LinkinterfaceUART.buffered false) = [] :=
      List.eq_nil_of_length_eq_zero (by omega)
    have hfits : (payload self.content).length ≤ capacity := by omega
    rw [buffered, hbefore, haborted, List.nil_append, List.nil_append,
      List.take_of_length_le hfits, buffered_eq_payload_iff h.2.2] at hsame
    refine ⟨?_, fun items hitems => ?_, hsame, hfits⟩
    · by_contra hne
      exact buffered_ne_nil hne hbefore
    · by_contra hne
      exact buffered_ne_nil hne (List.flatMap_eq_nil_iff.mp haborted items hitems)
  · rintro ⟨hbefore, haborted, hcontent, hfits⟩
    have hnothing : self.aborted.flatMap (LinkinterfaceUART.buffered false) = [] :=
      List.flatMap_eq_nil_iff.mpr fun items hitems => by rw [haborted items hitems]; rfl
    rw [buffered, hbefore, hnothing, (buffered_eq_payload_iff h.2.2).mpr hcontent,
      List.take_of_length_le hfits]
    rfl

end Round

namespace Stream

theorem bytes_cons (round : Round) (rest : List Round) (tail : List Item) :
    bytes ⟨round :: rest, tail⟩ = round.bytes ++ bytes ⟨rest, tail⟩ := by
  rw [bytes, bytes, List.flatMap_cons, List.append_assoc]

/-- Every complete frame puts at least one message into the queue. -/
theorem length_rounds_le (rounds : List Round) (tail : List Item) (queue : List (List UInt8)) :
    queue.length + rounds.length ≤
      (ReceiveLoop.receive ⟨queue, [], false⟩ (bytes ⟨rounds, tail⟩)).messageQueue.length := by
  induction rounds generalizing queue with
  | nil => exact @ReceiveLoop.length_messageQueue_receive ⟨queue, [], false⟩ _
  | cons round rest ih =>
    rw [bytes_cons, ReceiveLoop.receive_append, List.length_cons]
    by_cases hclean : round.Clean
    · rw [hclean.receive]
      have hrest := ih (queue ++ [round.buffered])
      rw [List.length_append, List.length_singleton] at hrest
      omega
    · obtain ⟨queue', hreceive, hlonger⟩ := Round.receive_of_not_clean hclean
      rw [hreceive]
      have hrest := ih queue'
      omega

/-- The middleware reads the messages of the nodes, and no others. -/
theorem receive_eq_iff (rounds : List Round) (tail : List Item) (queue : List (List UInt8))
    (capacity : Nat) :
    (ReceiveLoop.receive ⟨queue, [], false⟩ (bytes ⟨rounds, tail⟩)).messageQueue =
        queue ++ delivered ⟨rounds, tail⟩ capacity ↔
      (∀ round ∈ rounds, round.Plain capacity) ∧ ¬ Misread tail := by
  induction rounds generalizing queue with
  | nil =>
    have hbytes : bytes ⟨[], tail⟩ = tail.flatMap Item.bytes := rfl
    rw [hbytes, delivered, List.map_nil, List.append_nil]
    by_cases hread : Misread tail
    · have hlonger := @ReceiveLoop.length_messageQueue_of_misread ⟨queue, [], false⟩ _ (.inl hread)
      constructor
      · intro hsame
        rw [hsame] at hlonger
        exact absurd hlonger (Nat.lt_irrefl _)
      · exact fun h => absurd hread h.2
    · obtain ⟨mark, hreceive⟩ := ReceiveLoop.receive_items_unmarked hread queue []
      rw [hreceive]
      exact ⟨fun _ => ⟨nofun, hread⟩, fun _ => rfl⟩
  | cons round rest ih =>
    have hdelivered : delivered ⟨round :: rest, tail⟩ capacity =
        (payload round.content).take capacity :: delivered ⟨rest, tail⟩ capacity := rfl
    rw [bytes_cons, ReceiveLoop.receive_append, hdelivered, List.forall_mem_cons, and_assoc]
    by_cases hclean : round.Clean
    · rw [hclean.receive]
      by_cases hplain : round.Plain capacity
      · rw [(hclean.buffered_eq_iff capacity).mpr hplain,
          List.append_cons queue _ (delivered ⟨rest, tail⟩ capacity), ih]
        exact (and_iff_right hplain).symm
      · constructor
        · intro hsame
          have hprefix := @ReceiveLoop.messageQueue_le_receive
            ⟨queue ++ [round.buffered], [], false⟩ (bytes ⟨rest, tail⟩)
          rw [hsame, List.prefix_append_right_inj] at hprefix
          have hfirst := (List.cons_prefix_cons.mp hprefix).1
          exact absurd ((hclean.buffered_eq_iff capacity).mp hfirst) hplain
        · exact fun h => absurd h.1 hplain
    · obtain ⟨queue', hreceive, hlonger⟩ := Round.receive_of_not_clean hclean
      rw [hreceive]
      constructor
      · intro hsame
        have hlength := length_rounds_le rest tail queue'
        rw [hsame, List.length_append, List.length_cons, delivered, List.length_map] at hlength
        dsimp only at hlength
        omega
      · exact fun h => absurd h.1.clean hclean

end Stream

theorem toS3p_eq_sendMsg (len : Int) (s : Memory UInt8) :
    toS3p (s.front len.toNat) = Sender.sendMsg len s := by
  have hbytes : ∀ b : UInt8, (if b = 0xFE then [0xFE, 0x7E] else [b]) = Sender.putDataByte b := by
    intro b
    by_cases hb : b = 0xFE
    · rw [if_pos hb, hb]
      rfl
    · rw [if_neg hb, putDataByte_plain hb]
  rw [toS3p, Sender.sendMsg]
  simp only [hbytes]
  rfl

/-- The senders agree on every message. The receivers agree if and only if up to the last complete
frame there is nothing outside the frames, in frames that are given up, or in the form of commands,
every frame fits, and no byte is misread behind it. -/
theorem receiveLoop_eq_iff (maxLen : Int) (msg : Memory UInt8) (stream : Stream) :
    (∀ (len : Int) (s : Memory UInt8), toS3p (s.front len.toNat) = Sender.sendMsg len s) ∧
      ((ReceiveLoop.receive {} stream.bytes).messageQueue =
          messages (receiveSynchronous maxLen msg stream.bytes) ↔
        (∀ round ∈ stream.rounds, round.Plain maxLen.toNat) ∧ ¬ Misread stream.tail) := by
  refine ⟨toS3p_eq_sendMsg, ?_⟩
  rw [messages_receiveSynchronous]
  exact Stream.receive_eq_iff stream.rounds stream.tail [] maxLen.toNat

/-- A frame with a 1 that is given up for a frame with a 2. -/
theorem receiveLoop_keeps_aborted :
    (ReceiveLoop.receive {} (Stream.bytes ⟨[⟨[], [[.data 1]], [.data 2]⟩], []⟩)).messageQueue =
        [[1, 2]] ∧
      messages (receiveSynchronous 1300 (fun _ => 0)
        (Stream.bytes ⟨[⟨[], [[.data 1]], [.data 2]⟩], []⟩)) = [[2]] := by
  constructor
  · decide
  · rw [messages_receiveSynchronous]
    decide

end LinkinterfaceUART

end Rodos.Middleware
