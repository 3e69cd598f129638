import OranSlice.Gtpu.GpduSafety

/-! The lock on the tunnels, along all ways out of the handlers of received datagrams. -/

namespace OranSlice.Gtpu

open BitCodec Walk

inductive LockOp where
  | lock
  | unlock
deriving DecidableEq, Repr

/-- Whether the lock is held in the end; a thread that locks it twice waits for ever. -/
def runLock : Bool → List LockOp → Option Bool
  | held, [] => some held
  | false, .lock :: rest => runLock true rest
  | true, .unlock :: rest => runLock false rest
  | true, .lock :: _ => none
  | false, .unlock :: _ => none

variable (globGtp : GtpEndPoints) (h : Int) (header : MsgHeader)

def endMarkerLocks : List LockOp :=
  if header.version ≠ 1 ∨ header.pt ≠ 1 then []
  else if globGtp.instanceKey h ∉ globGtp.instances then [.lock, .unlock]
  else
    match globGtp.te2ueMapping.lookup header.teid with
    | none => [.lock, .unlock]
    -- released before the callback
    | some _ => [.lock, .unlock]

def gpduLocks (received : Received) : List LockOp :=
  if header.version ≠ 1 ∨ header.pt ≠ 1 then []
  else .lock :: if received.gtpLock then [] else [.unlock]

def gtpEndMarker : Nat := 254

def receiverLocks (fuel : Nat) (udpData : Datagram) : Except Fault (List LockOp) := do
  match ← gtpv1uReceiver fuel globGtp h udpData with
  | some received =>
    let header ← msgHeader udpData.bytes
    return gpduLocks header received
  | none =>
    if udpData.bytes.length < 8 then return []
    else
      let msg ← msgHeader udpData.bytes
      if msg.msgLength + 8 ≠ udpData.bytes.length then return []
      else if msg.msgType = gtpEndMarker then return endMarkerLocks globGtp h msg
      -- echo, error indication, supported extension headers and unknown types
      else return []

def LockReleased (udpData : Datagram) : Prop :=
  ∃ fuel ops, receiverLocks globGtp h fuel udpData = .ok ops ∧ runLock false ops = some false

theorem endMarkerLocks_released : runLock false (endMarkerLocks globGtp h header) = some false := by
  unfold endMarkerLocks
  split
  · rfl
  · split
    · rfl
    · split <;> rfl

variable {globGtp h header} {msgBuf : List Byte} {udpData : Datagram} {received : Received}

theorem gpduLocks_released (free : received.gtpLock = false) : runLock false (gpduLocks header received) = some false := by
  unfold gpduLocks
  rw [free]
  split <;> rfl

theorem gpduLocks_held (version : header.version = 1) (pt : header.pt = 1) (held : received.gtpLock = true) :
    runLock false (gpduLocks header received) = some true := by
  unfold gpduLocks
  rw [version, pt, held]
  rfl

def Whole (msgBuf : List Byte) (offset type : Nat) : Prop :=
  byteAt msgBuf offset ≠ 0 ∧ Readable msgBuf offset type ∧ offset + byteAt msgBuf offset * 4 ≤ msgBuf.length

instance (msgBuf : List Byte) (offset type : Nat) : Decidable (Whole msgBuf offset type) :=
  inferInstanceAs (Decidable (_ ∧ _))

def Followed (msgBuf : List Byte) : Prop :=
  12 ≤ msgBuf.length ∧ ∀ offset type, HeaderAt msgBuf offset type → type ≠ noMoreExtHdrs → Whole msgBuf offset type

theorem Whole.starts {offset type : Nat} (whole : Whole msgBuf offset type) : offset < msgBuf.length := by
  have positive := Nat.pos_of_ne_zero whole.1
  have inside := whole.2.2
  omega

theorem Whole.complete {offset type : Nat} (whole : Whole msgBuf offset type) : Complete msgBuf offset type :=
  ⟨whole.starts, .inr ⟨whole.1, whole.2.1⟩⟩

theorem walk_follows_iff {start : ExtState} (first : start.offset = 12)
    (type : start.nextExtensionHeaderType = byteAt msgBuf 11) :
    (∃ s, Returns (extensionHeader msgBuf) start (some s)) ↔
      ∀ offset type, HeaderAt msgBuf offset type → type ≠ noMoreExtHdrs → Whole msgBuf offset type := by
  constructor
  · rintro ⟨last, returns⟩ offset type' here more
    have complete := (walk_returns_iff first type).mp ⟨_, returns⟩ offset type' here more
    obtain ⟨s, reached, rfl, rfl, behind, _⟩ := reaches_of_headerAt first type returns here
    have goesOn : ¬ extensionHeader msgBuf s = .ok (.stop none) := by
      intro stopped
      rcases (returns_reached reached returns).first with other | ⟨next, taken, _⟩
      · cases stopped.symm.trans other
      · cases stopped.symm.trans taken
    obtain ⟨starts, refused | ⟨positive, readable⟩⟩ := complete
    · exact absurd (extensionHeader_refused more starts refused) goesOn
    · rcases extensionHeader_readable more starts readable behind with ⟨_, stopped⟩ | ⟨inside, _⟩
      · exact absurd stopped goesOn
      · exact ⟨positive, readable, inside⟩
  · intro whole
    have reached := fun s => @headerAt_of_reaches msgBuf s start first type
      (fun offset type here more => (whole offset type here more).complete)
    have progress (s : ExtState) (good : HeaderAt msgBuf s.offset s.nextExtensionHeaderType ∧ 0 < s.offset) :
        (∃ result, extensionHeader msgBuf s = .ok (.stop result) ∧ result.isSome) ∨
          ∃ next, extensionHeader msgBuf s = .ok (.again next) ∧
            msgBuf.length - next.offset < msgBuf.length - s.offset := by
      by_cases last : s.nextExtensionHeaderType = noMoreExtHdrs
      · exact .inl ⟨some s, if_pos last, rfl⟩
      have here := whole _ _ good.1 last
      have starts := here.starts
      obtain ⟨positive, readable, inside⟩ := here
      rcases extensionHeader_readable last starts readable good.2 with ⟨outside, _⟩ | ⟨_, next, taken, offset, _⟩
      · omega
      · exact .inr ⟨next, taken, by omega⟩
    obtain ⟨result, returns, present⟩ := returns_of_reaches _ progress reached
    obtain ⟨s, rfl⟩ := Option.isSome_iff_exists.mp present
    exact ⟨s, returns⟩

theorem handleTunnel_released_iff (e : header.e = true) (owner : UeidData) :
    (∃ fuel received, handleTunnel fuel owner msgBuf header = .ok received ∧ received.gtpLock = false) ↔
      Followed msgBuf := by
  rw [handleTunnel_returns_iff e owner, Followed, ← @walk_follows_iff msgBuf ⟨12, byteAt msgBuf 11, -1, false, 0⟩ rfl rfl]
  refine and_congr_right fun _ => ⟨?_, fun ⟨s, returns⟩ => ⟨some s, returns, rfl⟩⟩
  rintro ⟨_ | s, returns, free⟩
  · cases free
  · exact ⟨s, returns⟩

theorem lockReleased_extended (extended : Extended globGtp h udpData) :
    LockReleased globGtp h udpData ↔ Followed udpData.bytes := by
  obtain ⟨owner, tunnelled⟩ := extended.tunnelled
  have handled := receive_tunnel tunnelled
  rw [← @handleTunnel_released_iff (headerOf udpData.bytes) udpData.bytes extended.e owner]
  constructor
  · rintro ⟨fuel, ops, returned, released⟩
    rw [receiverLocks, handled] at returned
    cases outcome : handleTunnel fuel owner udpData.bytes (headerOf udpData.bytes) with
    | error fault =>
      rw [outcome] at returned
      cases returned
    | ok received =>
      rw [outcome, msgHeader_inside extended.header] at returned
      cases returned
      refine ⟨fuel, received, outcome, ?_⟩
      by_contra held
      rw [gpduLocks_held extended.version extended.pt (Bool.not_eq_false _ ▸ held)] at released
      cases released
  · rintro ⟨fuel, received, outcome, free⟩
    refine ⟨fuel, gpduLocks (headerOf udpData.bytes) received, ?_, gpduLocks_released free⟩
    rw [receiverLocks, handled, outcome, msgHeader_inside extended.header]
    rfl

theorem receive_plain (plain : ¬ Extended globGtp h udpData) :
    ∃ result, (∀ fuel, gtpv1uReceiver fuel globGtp h udpData = .ok result) ∧
      ∀ received ∈ result, received.gtpLock = false := by
  by_cases known : ∃ owner, Tunnelled globGtp h udpData owner
  · obtain ⟨owner, tunnelled⟩ := known
    obtain ⟨s, handled, _⟩ := handleTunnel_plain (mt tunnelled.extended_iff.mpr plain) owner
    refine ⟨some (handOver udpData.bytes.length owner s), fun fuel => ?_, ?_⟩
    · rw [receive_tunnel tunnelled, handled]
      rfl
    · rintro received ⟨⟩
      rfl
  · obtain ⟨result, returned, quiet⟩ := receive_stray (not_exists.mp known)
    exact ⟨result, returned, fun received member => (quiet received member).1⟩

theorem lockReleased_plain (plain : ¬ Extended globGtp h udpData) : LockReleased globGtp h udpData := by
  obtain ⟨result, returned, free⟩ := receive_plain plain
  unfold LockReleased receiverLocks
  simp only [returned]
  refine ⟨0, ?_⟩
  by_cases header : udpData.bytes.length < 8
  · cases result with
    | none => exact ⟨[], if_pos header, rfl⟩
    | some received =>
      have dropped := returned 0
      rw [gtpv1uReceiver, if_pos header] at dropped
      cases dropped
  · rw [msgHeader_inside (not_lt.mp header)]
    cases result with
    | some received => exact ⟨_, rfl, gpduLocks_released (free received rfl)⟩
    | none =>
      simp only [bind, Except.bind, if_neg header]
      by_cases msgLength : (headerOf udpData.bytes).msgLength + 8 ≠ udpData.bytes.length
      · exact ⟨[], if_pos msgLength, rfl⟩
      rw [if_neg msgLength]
      by_cases endMarker : (headerOf udpData.bytes).msgType = gtpEndMarker
      · exact ⟨_, if_pos endMarker, endMarkerLocks_released globGtp h _⟩
      · exact ⟨[], if_neg endMarker, rfl⟩

/-- The handler of a datagram releases the lock exactly if the extension headers of a G-PDU for a known
tunnel lead to its payload. -/
theorem gtp_lock_released_iff (globGtp : GtpEndPoints) (h : Int) (udpData : Datagram) :
    LockReleased globGtp h udpData ↔ (Extended globGtp h udpData → Followed udpData.bytes) := by
  by_cases extended : Extended globGtp h udpData
  · rw [lockReleased_extended extended]
    exact ⟨fun followed _ => followed, fun condition => condition extended⟩
  · exact ⟨fun _ present => absurd present extended, fun _ => lockReleased_plain extended⟩

/-- A G-PDU for TEID 1 that ends in its PDU session container. -/
def truncatedContainer : Datagram :=
  ⟨[0x34, 0xff, 0, 5, 0, 0, 0, 1, 0, 0, 0, 0x85, 1], by decide⟩

/-- The lock is taken and not released, and the next packet waits for it. -/
theorem gtp_lock_kept :
    receiverLocks oneTunnel 5 1 truncatedContainer = .ok [.lock] ∧ runLock true [.lock] = none ∧
      ¬ LockReleased oneTunnel 5 truncatedContainer := by
  refine ⟨by decide, rfl, ?_⟩
  have extended : Extended oneTunnel 5 truncatedContainer :=
    ⟨⟨by decide, by decide, by decide, by decide, by decide, by decide⟩, by decide, by decide⟩
  rw [lockReleased_extended extended]
  intro followed
  exact absurd (followed.2 12 _ .first (by decide)) (by decide)

end OranSlice.Gtpu
