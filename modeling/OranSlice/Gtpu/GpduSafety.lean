import OranSlice.Gtpu.Gpdu

/-! A G-PDU is received within its bytes exactly if each extension header that is reached has a
length and is complete, and there is a callback for its payload. -/

namespace OranSlice.Gtpu

open BitCodec Walk

variable {msgBuf : List Byte} {offset type type' : Nat} {s : ExtState}

theorem octet_inside {i : Nat} (inside : i < msgBuf.length) : octet msgBuf i = .ok (byteAt msgBuf i) := by
  rw [octet, readAt_inside inside 0]
  rfl

theorem octet_outside {i : Nat} (outside : msgBuf.length ≤ i) : octet msgBuf i = .error .outOfBounds := by
  rw [octet, readAt_outside outside]
  rfl

def Readable (msgBuf : List Byte) (offset type : Nat) : Prop :=
  if type = pduSessionContainer then offset + 2 < msgBuf.length
  else if type = nrRanContainer then
    offset + 1 < msgBuf.length ∧ (byteAt msgBuf (offset + 1) / 16 % 16 = 0 →
      offset + 2 < msgBuf.length ∧ (byteAt msgBuf (offset + 2) / 8 % 2 = 1 →
        offset + additionalOffset (byteAt msgBuf (offset + 1)) + 2 < msgBuf.length))
  else True

def Refused (msgBuf : List Byte) (offset type : Nat) : Prop :=
  type = pduSessionContainer ∧ msgBuf.length < offset + 2

def Complete (msgBuf : List Byte) (offset type : Nat) : Prop :=
  offset < msgBuf.length ∧ (Refused msgBuf offset type ∨ byteAt msgBuf offset ≠ 0 ∧ Readable msgBuf offset type)

instance : Decidable (Readable msgBuf offset type) := by
  unfold Readable
  infer_instance

instance : Decidable (Refused msgBuf offset type) := inferInstanceAs (Decidable (_ ∧ _))

instance : Decidable (Complete msgBuf offset type) := inferInstanceAs (Decidable (_ ∧ _))

inductive HeaderAt (msgBuf : List Byte) : Nat → Nat → Prop where
  | first : HeaderAt msgBuf 12 (byteAt msgBuf 11)
  | next {offset type : Nat} (earlier : HeaderAt msgBuf offset type) (more : type ≠ noMoreExtHdrs)
      (accepted : ¬ Refused msgBuf offset type)
      (inside : offset + byteAt msgBuf offset * 4 ≤ msgBuf.length) :
      HeaderAt msgBuf (offset + byteAt msgBuf offset * 4)
        (byteAt msgBuf (offset + byteAt msgBuf offset * 4 - 1))

def QfiAfter (type : Nat) (old new : Int) : Prop := if type = pduSessionContainer then new ≠ -1 else new = old

theorem readPduSessionContainer_cases (here : s.nextExtensionHeaderType = pduSessionContainer) :
    Refused msgBuf s.offset s.nextExtensionHeaderType ∧ readPduSessionContainer msgBuf s = .ok none ∨
      Readable msgBuf s.offset s.nextExtensionHeaderType ∧
        (∃ after, readPduSessionContainer msgBuf s = .ok (some after) ∧ after.offset = s.offset ∧
          QfiAfter s.nextExtensionHeaderType s.qfi after.qfi) ∨
      ¬ Readable msgBuf s.offset s.nextExtensionHeaderType ∧
        readPduSessionContainer msgBuf s = .error .outOfBounds := by
  unfold Refused Readable readPduSessionContainer QfiAfter
  rw [if_pos here]
  rcases Nat.lt_trichotomy (s.offset + 2) msgBuf.length with inside | last | outside
  · rw [if_neg (by omega), octet_inside inside]
    refine .inr (.inl ⟨inside, _, rfl, rfl, ?_⟩)
    rw [if_pos here]
    dsimp only
    omega
  · rw [if_neg (by omega), octet_outside (by omega)]
    exact .inr (.inr ⟨by omega, rfl⟩)
  · rw [if_pos outside]
    exact .inl ⟨⟨here, outside⟩, rfl⟩

theorem readNrRanContainer_cases (here : s.nextExtensionHeaderType = nrRanContainer)
    (starts : s.offset < msgBuf.length) :
    Readable msgBuf s.offset s.nextExtensionHeaderType ∧
        (∃ after, readNrRanContainer msgBuf s = .ok (some after) ∧ after.offset = s.offset ∧
          QfiAfter s.nextExtensionHeaderType s.qfi after.qfi) ∨
      ¬ Readable msgBuf s.offset s.nextExtensionHeaderType ∧ readNrRanContainer msgBuf s = .error .outOfBounds := by
  have other : s.nextExtensionHeaderType ≠ pduSessionContainer := by
    rw [here]
    decide
  unfold Readable readNrRanContainer QfiAfter
  simp only [if_neg other]
  rw [if_pos here, if_neg (by omega)]
  by_cases first : s.offset + 1 < msgBuf.length
  · rw [octet_inside first]
    simp only [bind, Except.bind]
    by_cases userData : byteAt msgBuf (s.offset + 1) / 16 % 16 = 0
    · rw [if_pos userData]
      by_cases second : s.offset + 2 < msgBuf.length
      · rw [octet_inside second]
        dsimp only
        by_cases report : byteAt msgBuf (s.offset + 2) / 8 % 2 = 1
        · rw [if_pos report]
          by_cases sn : s.offset + additionalOffset (byteAt msgBuf (s.offset + 1)) + 2 < msgBuf.length
          · rw [octet_inside (by omega), octet_inside (by omega), octet_inside sn]
            exact .inl ⟨⟨first, fun _ => ⟨second, fun _ => sn⟩⟩, _, rfl, rfl, rfl⟩
          refine .inr ⟨fun all => sn ((all.2 userData).2 report), ?_⟩
          by_cases sn1 : s.offset + additionalOffset (byteAt msgBuf (s.offset + 1)) < msgBuf.length
          · rw [octet_inside sn1]
            by_cases sn2 : s.offset + additionalOffset (byteAt msgBuf (s.offset + 1)) + 1 < msgBuf.length
            · rw [octet_inside sn2, octet_outside (by omega)]
            · rw [octet_outside (by omega)]
          · rw [octet_outside (by omega)]
        · rw [if_neg report]
          exact .inl ⟨⟨first, fun _ => ⟨second, fun reported => absurd reported report⟩⟩, s, rfl, rfl, rfl⟩
      · rw [octet_outside (by omega)]
        exact .inr ⟨fun all => second (all.2 userData).1, rfl⟩
    · rw [if_neg userData]
      exact .inl ⟨⟨first, fun zero => absurd zero userData⟩, s, rfl, rfl, rfl⟩
  · rw [octet_outside (by omega)]
    exact .inr ⟨fun all => first all.1, rfl⟩

theorem readExtension_cases (starts : s.offset < msgBuf.length) :
    Refused msgBuf s.offset s.nextExtensionHeaderType ∧ readExtension msgBuf s = .ok none ∨
      Readable msgBuf s.offset s.nextExtensionHeaderType ∧
        (∃ after, readExtension msgBuf s = .ok (some after) ∧ after.offset = s.offset ∧
          QfiAfter s.nextExtensionHeaderType s.qfi after.qfi) ∨
      ¬ Readable msgBuf s.offset s.nextExtensionHeaderType ∧ readExtension msgBuf s = .error .outOfBounds := by
  by_cases session : s.nextExtensionHeaderType = pduSessionContainer
  · rw [readExtension, if_pos session]
    exact readPduSessionContainer_cases session
  rw [readExtension, if_neg session]
  by_cases ran : s.nextExtensionHeaderType = nrRanContainer
  · rw [if_pos ran]
    exact .inr (readNrRanContainer_cases ran starts)
  rw [if_neg ran]
  refine .inr (.inl ⟨?_, s, rfl, rfl, ?_⟩)
  · rw [Readable, if_neg session, if_neg ran]
    trivial
  · rw [QfiAfter, if_neg session]

theorem readable_not_refused (readable : Readable msgBuf offset type) : ¬ Refused msgBuf offset type := by
  rintro ⟨rfl, outside⟩
  rw [Readable, if_pos rfl] at readable
  omega

section

variable (more : s.nextExtensionHeaderType ≠ noMoreExtHdrs)

include more

theorem extensionHeader_readable (starts : s.offset < msgBuf.length)
    (readable : Readable msgBuf s.offset s.nextExtensionHeaderType) (behind : 0 < s.offset) :
    (msgBuf.length < s.offset + byteAt msgBuf s.offset * 4 ∧ extensionHeader msgBuf s = .ok (.stop none)) ∨
      s.offset + byteAt msgBuf s.offset * 4 ≤ msgBuf.length ∧ ∃ next, extensionHeader msgBuf s = .ok (.again next) ∧
        next.offset = s.offset + byteAt msgBuf s.offset * 4 ∧
        next.nextExtensionHeaderType = byteAt msgBuf (s.offset + byteAt msgBuf s.offset * 4 - 1) ∧
        QfiAfter s.nextExtensionHeaderType s.qfi next.qfi := by
  rcases readExtension_cases starts with ⟨refused, _⟩ | ⟨_, after, read, same, qfi⟩ | ⟨unreadable, _⟩
  · exact absurd refused (readable_not_refused readable)
  · rw [extensionHeader, if_neg more, octet_inside starts]
    simp only [bind, Except.bind, read]
    rw [same]
    by_cases outside : s.offset + byteAt msgBuf s.offset * 4 > msgBuf.length
    · rw [if_pos outside]
      exact .inl ⟨outside, rfl⟩
    · rw [if_neg outside, octet_inside (by omega)]
      exact .inr ⟨by omega, _, rfl, rfl, rfl, qfi⟩
  · exact absurd readable unreadable

theorem extensionHeader_refused (starts : s.offset < msgBuf.length)
    (refused : Refused msgBuf s.offset s.nextExtensionHeaderType) :
    extensionHeader msgBuf s = .ok (.stop none) := by
  rw [extensionHeader, if_neg more, octet_inside starts, readExtension, if_pos refused.1, readPduSessionContainer,
    if_pos refused.2]
  rfl

theorem not_returns_zero (starts : s.offset < msgBuf.length)
    (readable : Readable msgBuf s.offset s.nextExtensionHeaderType) (behind : 0 < s.offset)
    (known : s.nextExtensionHeaderType = byteAt msgBuf (s.offset - 1)) (zero : byteAt msgBuf s.offset = 0)
    (result : Option ExtState) : ¬ Returns (extensionHeader msgBuf) s result := by
  let stuck : ExtState → Prop := fun t =>
    t.offset = s.offset ∧ t.nextExtensionHeaderType = s.nextExtensionHeaderType
  apply @not_returns_of_stuck _ _ _ _ _ stuck
  · rintro t ⟨offset, type⟩
    rw [← offset, ← type] at readable
    rw [← offset] at starts behind zero
    rw [← type] at more
    rcases extensionHeader_readable more starts readable behind with ⟨outside, _⟩ | ⟨_, next, taken, offset', type', _⟩
    · omega
    · rw [zero, Nat.add_zero] at offset' type'
      refine ⟨next, taken, offset'.trans offset, ?_⟩
      rw [type', offset, known]
  · exact ⟨rfl, rfl⟩

theorem not_returns_incomplete (behind : 0 < s.offset)
    (known : s.nextExtensionHeaderType = byteAt msgBuf (s.offset - 1))
    (incomplete : ¬ Complete msgBuf s.offset s.nextExtensionHeaderType) (result : Option ExtState) :
    ¬ Returns (extensionHeader msgBuf) s result := by
  by_cases starts : s.offset < msgBuf.length
  · rcases readExtension_cases starts with ⟨refused, _⟩ | ⟨readable, _⟩ | ⟨_, failed⟩
    · exact absurd ⟨starts, .inl refused⟩ incomplete
    · have zero : byteAt msgBuf s.offset = 0 := by
        by_contra positive
        exact incomplete ⟨starts, .inr ⟨positive, readable⟩⟩
      exact not_returns_zero more starts readable behind known zero result
    · apply @not_returns_of_error _ _ _ _ _ .outOfBounds
      rw [extensionHeader, if_neg more, octet_inside starts]
      simp [bind, Except.bind, failed]
  · apply @not_returns_of_error _ _ _ _ _ .outOfBounds
    rw [extensionHeader, if_neg more, octet_outside (by omega)]
    rfl

end

variable {start : ExtState} {result : Option ExtState} {header : MsgHeader} {globGtp : GtpEndPoints} {h : Int}
  {udpData : Datagram}

theorem headerAt_of_reaches (first : start.offset = 12)
    (type : start.nextExtensionHeaderType = byteAt msgBuf 11)
    (complete : ∀ offset type, HeaderAt msgBuf offset type → type ≠ noMoreExtHdrs → Complete msgBuf offset type)
    (reached : Reaches (extensionHeader msgBuf) start s) :
    HeaderAt msgBuf s.offset s.nextExtensionHeaderType ∧ 0 < s.offset := by
  induction reached with
  | refl =>
    rw [first, type]
    exact ⟨.first, by decide⟩
  | @step t next _ taken ih =>
    obtain ⟨here, behind⟩ := ih
    have more : t.nextExtensionHeaderType ≠ noMoreExtHdrs := by
      intro last
      rw [extensionHeader, if_pos last] at taken
      cases taken
    obtain ⟨starts, refused | ⟨positive, readable⟩⟩ := complete _ _ here more
    · rw [extensionHeader_refused more starts refused] at taken
      cases taken
    rcases extensionHeader_readable more starts readable behind with
      ⟨_, stopped⟩ | ⟨inside, after, taken', offset, type', _⟩
    · cases stopped.symm.trans taken
    rw [taken'] at taken
    cases taken
    rw [offset, type']
    exact ⟨here.next more (readable_not_refused readable) inside, by omega⟩

theorem reaches_of_headerAt (first : start.offset = 12)
    (type : start.nextExtensionHeaderType = byteAt msgBuf 11)
    (returns : Returns (extensionHeader msgBuf) start result) (here : HeaderAt msgBuf offset type') :
    ∃ s, Reaches (extensionHeader msgBuf) start s ∧ s.offset = offset ∧ s.nextExtensionHeaderType = type' ∧
      0 < offset ∧ type' = byteAt msgBuf (offset - 1) := by
  induction here with
  | first => exact ⟨start, .refl, first, type, by decide, rfl⟩
  | @next offset type' earlier more accepted inside ih =>
    obtain ⟨s, reached, rfl, rfl, behind, known⟩ := ih
    have complete : Complete msgBuf s.offset s.nextExtensionHeaderType := by
      by_contra incomplete
      exact not_returns_incomplete more behind known incomplete result (returns_reached reached returns)
    obtain ⟨starts, refused | ⟨_, readable⟩⟩ := complete
    · exact absurd refused accepted
    rcases extensionHeader_readable more starts readable behind with
      ⟨outside, _⟩ | ⟨_, next, taken, offset, type', _⟩
    · omega
    · exact ⟨next, reached.step taken, offset, type', by omega, rfl⟩

theorem extensionHeader_progress (behind : 0 < s.offset)
    (complete : s.nextExtensionHeaderType ≠ noMoreExtHdrs → Complete msgBuf s.offset s.nextExtensionHeaderType) :
    (∃ result, extensionHeader msgBuf s = .ok (.stop result)) ∨
      ∃ next, extensionHeader msgBuf s = .ok (.again next) ∧
        msgBuf.length - next.offset < msgBuf.length - s.offset := by
  by_cases last : s.nextExtensionHeaderType = noMoreExtHdrs
  · exact .inl ⟨some s, if_pos last⟩
  obtain ⟨starts, refused | ⟨positive, readable⟩⟩ := complete last
  · exact .inl ⟨none, extensionHeader_refused last starts refused⟩
  rcases extensionHeader_readable last starts readable behind with
    ⟨_, stopped⟩ | ⟨inside, next, taken, offset, _⟩
  · exact .inl ⟨none, stopped⟩
  · exact .inr ⟨next, taken, by omega⟩

theorem walk_returns_iff (first : start.offset = 12) (type : start.nextExtensionHeaderType = byteAt msgBuf 11) :
    (∃ result, Returns (extensionHeader msgBuf) start result) ↔
      ∀ offset type, HeaderAt msgBuf offset type → type ≠ noMoreExtHdrs → Complete msgBuf offset type := by
  constructor
  · rintro ⟨result, returns⟩ offset type' here more
    obtain ⟨s, reached, rfl, rfl, behind, known⟩ := reaches_of_headerAt first type returns here
    by_contra incomplete
    exact not_returns_incomplete more behind known incomplete result (returns_reached reached returns)
  · intro complete
    have reached := fun s => @headerAt_of_reaches msgBuf s start first type complete
    obtain ⟨result, returns, _⟩ := @returns_of_reaches _ _ (extensionHeader msgBuf) start
      (fun s => 0 < s.offset ∧ (s.nextExtensionHeaderType ≠ noMoreExtHdrs →
        Complete msgBuf s.offset s.nextExtensionHeaderType)) (fun _ => True)
      (fun s => msgBuf.length - s.offset)
      (fun s good => (extensionHeader_progress good.1 good.2).imp
        (fun ⟨result, stopped⟩ => ⟨result, stopped, trivial⟩) id)
      (fun s here => ⟨(reached s here).2, complete _ _ (reached s here).1⟩)
    exact ⟨result, returns⟩

theorem msgHeader_inside (enough : 8 ≤ msgBuf.length) : msgHeader msgBuf = .ok (headerOf msgBuf) :=
  if_neg (not_lt.mpr enough)

theorem extensionHeader_turn {turn : Turn ExtState (Option ExtState)} (behind : 0 < s.offset)
    (done : extensionHeader msgBuf s = .ok turn) :
    (s.nextExtensionHeaderType = noMoreExtHdrs ∧ turn = .stop (some s)) ∨
      s.nextExtensionHeaderType ≠ noMoreExtHdrs ∧ (turn = .stop none ∨ ∃ next, turn = .again next ∧
        0 < next.offset ∧ QfiAfter s.nextExtensionHeaderType s.qfi next.qfi) := by
  by_cases last : s.nextExtensionHeaderType = noMoreExtHdrs
  · rw [extensionHeader, if_pos last] at done
    exact .inl ⟨last, (Except.ok.inj done).symm⟩
  refine .inr ⟨last, ?_⟩
  by_cases starts : s.offset < msgBuf.length
  · rcases readExtension_cases starts with ⟨refused, _⟩ | ⟨readable, _⟩ | ⟨_, failed⟩
    · rw [extensionHeader_refused last starts refused] at done
      exact .inl (Except.ok.inj done).symm
    · rcases extensionHeader_readable last starts readable behind with
        ⟨_, stopped⟩ | ⟨_, next, taken, offset, _, qfi⟩
      · exact .inl (Except.ok.inj (done.symm.trans stopped))
      · exact .inr ⟨next, Except.ok.inj (done.symm.trans taken), by omega, qfi⟩
    · rw [extensionHeader, if_neg last, octet_inside starts] at done
      simp only [bind, Except.bind, failed] at done
      cases done
  · rw [extensionHeader, if_neg last, octet_outside (by omega)] at done
    cases done

theorem extensionHeader_again (behind : 0 < s.offset) {next : ExtState}
    (taken : extensionHeader msgBuf s = .ok (.again next)) :
    0 < next.offset ∧ QfiAfter s.nextExtensionHeaderType s.qfi next.qfi := by
  rcases extensionHeader_turn behind taken with ⟨_, ⟨⟩⟩ | ⟨_, ⟨⟨⟩⟩ | ⟨next, ⟨⟩, later⟩⟩
  exact later

section

variable (reached : Reaches (extensionHeader msgBuf) start s) (behind : 0 < start.offset)

include reached behind

theorem offset_pos : 0 < s.offset := by
  induction reached with
  | refl => exact behind
  | step _ taken ih => exact (extensionHeader_again ih taken).1

theorem qfi_kept (set : start.qfi ≠ -1) : s.qfi ≠ -1 := by
  induction reached with
  | refl => exact set
  | step earlier taken ih =>
    obtain ⟨_, qfi⟩ := extensionHeader_again (offset_pos earlier behind) taken
    unfold QfiAfter at qfi
    split at qfi
    · exact qfi
    · exact qfi ▸ ih

theorem qfi_found (none : start.qfi = -1) (set : s.qfi ≠ -1) :
    ∃ t, Reaches (extensionHeader msgBuf) start t ∧ t.nextExtensionHeaderType = pduSessionContainer := by
  induction reached with
  | refl => exact absurd none set
  | @step t next earlier taken ih =>
    obtain ⟨_, qfi⟩ := extensionHeader_again (offset_pos earlier behind) taken
    unfold QfiAfter at qfi
    split at qfi
    · rename_i container
      exact ⟨t, earlier, container⟩
    · exact ih (qfi ▸ set)

end

theorem walk_last (behind : 0 < start.offset) (returns : Returns (extensionHeader msgBuf) start (some s)) :
    Reaches (extensionHeader msgBuf) start s ∧ s.nextExtensionHeaderType = noMoreExtHdrs := by
  obtain ⟨t, reached, stopped⟩ := returns.reaches_stop
  rcases extensionHeader_turn (offset_pos reached behind) stopped with ⟨last, ⟨⟩⟩ | ⟨_, ⟨⟨⟩⟩ | ⟨_, ⟨⟩, _⟩⟩
  exact ⟨reached, last⟩

theorem walk_stops (final : s.nextExtensionHeaderType = noMoreExtHdrs)
    (returns : Returns (extensionHeader msgBuf) s result) : result = some s := by
  have stop : extensionHeader msgBuf s = .ok (.stop (some s)) := if_pos final
  rcases returns.first with stopped | ⟨next, taken, _⟩
  · cases stop.symm.trans stopped
    rfl
  · cases stop.symm.trans taken

section

variable (first : start.offset = 12) (kind : start.nextExtensionHeaderType = byteAt msgBuf 11)

include first kind

theorem walk_malformed (returns : Returns (extensionHeader msgBuf) start none) :
    ¬ HeaderAt msgBuf offset noMoreExtHdrs := by
  intro here
  obtain ⟨t, reached, _, final, _⟩ := reaches_of_headerAt first kind returns here
  cases walk_stops final (returns_reached reached returns)

variable (returns : Returns (extensionHeader msgBuf) start (some s))

include returns

theorem walk_payload : HeaderAt msgBuf offset noMoreExtHdrs ↔ offset = s.offset := by
  have complete := (walk_returns_iff first kind).mp ⟨_, returns⟩
  constructor
  · intro here
    obtain ⟨t, reached, rfl, final, _⟩ := reaches_of_headerAt first kind returns here
    cases walk_stops final (returns_reached reached returns)
    rfl
  · rintro rfl
    obtain ⟨reached, last⟩ := walk_last (by omega) returns
    exact last ▸ (headerAt_of_reaches first kind complete reached).1

theorem walk_qfi (none : start.qfi = -1) :
    s.qfi ≠ -1 ↔ ∃ offset, HeaderAt msgBuf offset pduSessionContainer := by
  have behind : 0 < start.offset := by omega
  have complete := (walk_returns_iff first kind).mp ⟨_, returns⟩
  constructor
  · intro set
    obtain ⟨t, reached, container⟩ := qfi_found (walk_last behind returns).1 behind none set
    exact ⟨t.offset, container ▸ (headerAt_of_reaches first kind complete reached).1⟩
  · rintro ⟨offset, here⟩
    obtain ⟨t, reached, rfl, container, inside, _⟩ := reaches_of_headerAt first kind returns here
    -- the container is not the last header, so the walk goes on behind it
    rcases (returns_reached reached returns).first with stopped | ⟨next, taken, onward⟩
    · rcases extensionHeader_turn inside stopped with ⟨final, _⟩ | ⟨_, ⟨⟨⟩⟩ | ⟨_, ⟨⟩, _⟩⟩
      rw [final] at container
      cases container
    · obtain ⟨later, qfi⟩ := extensionHeader_again inside taken
      rw [QfiAfter, if_pos container] at qfi
      exact qfi_kept (walk_last later onward).1 later qfi

end

structure Gpdu (globGtp : GtpEndPoints) (h : Int) (udpData : Datagram) : Prop where
  header : 8 ≤ udpData.bytes.length
  msgLength : (headerOf udpData.bytes).msgLength + 8 = udpData.bytes.length
  msgType : (headerOf udpData.bytes).msgType = gtpGpdu
  version : (headerOf udpData.bytes).version = 1
  pt : (headerOf udpData.bytes).pt = 1
  known : globGtp.instanceKey h ∈ globGtp.instances

structure Tunnelled (globGtp : GtpEndPoints) (h : Int) (udpData : Datagram) (owner : UeidData) : Prop
    extends Gpdu globGtp h udpData where
  tunnel : globGtp.te2ueMapping.lookup (headerOf udpData.bytes).teid = some owner

structure Extended (globGtp : GtpEndPoints) (h : Int) (udpData : Datagram) : Prop
    extends Gpdu globGtp h udpData where
  tunnel : (headerOf udpData.bytes).teid ∈ globGtp.te2ueMapping
  e : (headerOf udpData.bytes).e = true

theorem Extended.tunnelled (extended : Extended globGtp h udpData) : ∃ owner, Tunnelled globGtp h udpData owner := by
  obtain ⟨owner, tunnel⟩ := Option.isSome_iff_exists.mp (AList.lookup_isSome.mpr extended.tunnel)
  exact ⟨owner, extended.toGpdu, tunnel⟩

theorem Tunnelled.extended_iff {owner : UeidData} (tunnelled : Tunnelled globGtp h udpData owner) :
    Extended globGtp h udpData ↔ (headerOf udpData.bytes).e = true := by
  have present : (headerOf udpData.bytes).teid ∈ globGtp.te2ueMapping :=
    AList.lookup_isSome.mp (by rw [tunnelled.tunnel]; rfl)
  exact ⟨Extended.e, fun e => ⟨tunnelled.toGpdu, present, e⟩⟩

def Chained (msgBuf : List Byte) : Prop :=
  12 ≤ msgBuf.length ∧
    ∀ offset type, HeaderAt msgBuf offset type → type ≠ noMoreExtHdrs → Complete msgBuf offset type

def PayloadAt (msgBuf : List Byte) (offset : Nat) : Prop :=
  offset < msgBuf.length ∧ if (headerOf msgBuf).e then HeaderAt msgBuf offset noMoreExtHdrs
    else offset = 8 + if (headerOf msgBuf).s || (headerOf msgBuf).pn then 4 else 0

/-- The callback that is called is set: that of SDAP is taken for a payload with a PDU session container. -/
def Callable (owner : UeidData) (msgBuf : List Byte) : Prop :=
  owner.callBack.isSome ∨ (owner.callBackSdap.isSome ∧ (headerOf msgBuf).e ∧
    ∃ offset, HeaderAt msgBuf offset pduSessionContainer)

def Received.Within (received : Received) (msgBufLen : Nat) : Prop :=
  ∀ handed ∈ received.handed, handed.sduBuffer + handed.sduBufferSize ≤ msgBufLen ∧ handed.callBack.isSome

/-- The receiver returns, all reads were inside the datagram and so is the payload, which a callback is
called with. -/
def ReceivedWithin (globGtp : GtpEndPoints) (h : Int) (udpData : Datagram) : Prop :=
  ∃ fuel result, gtpv1uReceiver fuel globGtp h udpData = .ok result ∧
    ∀ received ∈ result, received.Within udpData.bytes.length

theorem handOver_within_iff (msgBufLen : Nat) (owner : UeidData) (s : ExtState) :
    (handOver msgBufLen owner s).Within msgBufLen ↔
      (s.offset < msgBufLen → owner.callBack.isSome ∨ owner.callBackSdap.isSome ∧ s.qfi ≠ -1) := by
  unfold Received.Within handOver
  by_cases inside : s.offset < msgBufLen
  · simp only [if_pos inside, Option.mem_def, Option.some.injEq, forall_eq']
    rw [and_iff_right (by omega), imp_iff_right inside]
    split
    · rename_i sdap
      exact iff_of_true sdap.2 (.inr ⟨sdap.2, sdap.1⟩)
    · rename_i other
      refine ⟨.inl, ?_⟩
      rintro (plain | ⟨sdap, qfi⟩)
      · exact plain
      · exact absurd ⟨qfi, sdap⟩ other
  · simp [inside]

def walkOutcome (msgBuf : List Byte) (owner : UeidData) : Option ExtState → Received
  | none => { returned := gtpNok, gtpLock := true }
  | some s => handOver msgBuf.length owner s

theorem handleTunnel_returns_iff (e : header.e = true) (owner : UeidData) (property : Received → Prop) :
    (∃ fuel received, handleTunnel fuel owner msgBuf header = .ok received ∧ property received) ↔
      12 ≤ msgBuf.length ∧ ∃ result, Returns (extensionHeader msgBuf) ⟨12, byteAt msgBuf 11, -1, false, 0⟩ result ∧
        property (walkOutcome msgBuf owner result) := by
  have start (fuel : Nat) : handleTunnel fuel owner msgBuf header = (do
      let nextExtensionHeaderType ← octet msgBuf 11
      (walk (extensionHeader msgBuf) fuel { offset := 12, nextExtensionHeaderType }).map
        (walkOutcome msgBuf owner)) := by
    unfold handleTunnel
    rw [e]
    refine (if_pos rfl).trans (bind_congr fun type => ?_)
    change walk (extensionHeader msgBuf) fuel { offset := 12, nextExtensionHeaderType := type } >>= _ = _
    rcases walk (extensionHeader msgBuf) fuel { offset := 12, nextExtensionHeaderType := type } with _ | _ | _ <;> rfl
  simp only [start]
  by_cases enough : 12 ≤ msgBuf.length
  · rw [octet_inside (by omega)]
    constructor
    · rintro ⟨fuel, received, handled, holds⟩
      cases outcome : walk (extensionHeader msgBuf) fuel ⟨12, byteAt msgBuf 11, -1, false, 0⟩ with
      | error fault =>
        simp only [bind, Except.bind, outcome] at handled
        cases handled
      | ok result =>
        simp only [bind, Except.bind, outcome] at handled
        cases handled
        exact ⟨enough, result, ⟨fuel, outcome⟩, holds⟩
    · rintro ⟨_, result, ⟨fuel, outcome⟩, holds⟩
      refine ⟨fuel, _, ?_, holds⟩
      simp only [bind, Except.bind, outcome]
      rfl
  · rw [octet_outside (by omega)]
    constructor
    · rintro ⟨fuel, received, handled, _⟩
      cases handled
    · intro long
      exact absurd long.1 enough

theorem handleTunnel_extended (e : (headerOf msgBuf).e = true) (owner : UeidData) :
    (∃ fuel received, handleTunnel fuel owner msgBuf (headerOf msgBuf) = .ok received ∧
        received.Within msgBuf.length) ↔
      Chained msgBuf ∧ ∀ offset, PayloadAt msgBuf offset → Callable owner msgBuf := by
  rw [handleTunnel_returns_iff e owner, Chained,
    ← @walk_returns_iff msgBuf ⟨12, byteAt msgBuf 11, -1, false, 0⟩ rfl rfl, and_assoc]
  refine and_congr_right fun _ => ?_
  simp only [PayloadAt, if_pos e]
  -- what the walk returns decides about both sides
  have same (result : Option ExtState)
      (returns : Returns (extensionHeader msgBuf) ⟨12, byteAt msgBuf 11, -1, false, 0⟩ result) :
      (walkOutcome msgBuf owner result).Within msgBuf.length ↔
        ∀ offset, offset < msgBuf.length ∧ HeaderAt msgBuf offset noMoreExtHdrs → Callable owner msgBuf := by
    cases result with
    | none =>
      refine iff_of_true (fun handed member => ?_) (fun offset payload => ?_)
      · cases member
      · exact absurd payload.2 (walk_malformed rfl rfl returns)
    | some s =>
      have payload {offset : Nat} := @walk_payload msgBuf offset _ _ rfl rfl returns
      have qfi := walk_qfi rfl rfl returns rfl
      rw [walkOutcome, handOver_within_iff, Callable, qfi]
      simp only [payload, e, true_and]
      exact ⟨fun called offset here => called (here.2 ▸ here.1), fun called inside => called s.offset ⟨inside, rfl⟩⟩
  exact ⟨fun ⟨result, returns, within⟩ => ⟨⟨result, returns⟩, (same result returns).mp within⟩,
    fun ⟨⟨result, returns⟩, called⟩ => ⟨result, returns, (same result returns).mpr called⟩⟩

theorem handleTunnel_plain (e : (headerOf msgBuf).e ≠ true) (owner : UeidData) :
    ∃ s, (∀ fuel, handleTunnel fuel owner msgBuf (headerOf msgBuf) = .ok (handOver msgBuf.length owner s)) ∧
      ((handOver msgBuf.length owner s).Within msgBuf.length ↔
        ∀ offset, PayloadAt msgBuf offset → Callable owner msgBuf) := by
  refine ⟨_, fun _ => if_neg e, ?_⟩
  rw [handOver_within_iff]
  simp only [PayloadAt, Callable, e, Bool.false_or, Bool.false_eq_true, false_and, and_false, or_false,
    ne_eq, not_true_eq_false]
  exact ⟨fun called offset here => called (here.2 ▸ here.1), fun called inside => called _ ⟨inside, rfl⟩⟩

section

variable {owner : UeidData} (tunnelled : Tunnelled globGtp h udpData owner)

include tunnelled

theorem receive_tunnel (fuel : Nat) : gtpv1uReceiver fuel globGtp h udpData =
    (handleTunnel fuel owner udpData.bytes (headerOf udpData.bytes)).map some := by
  have header : ¬ udpData.bytes.length < 8 := not_lt.mpr tunnelled.header
  unfold gtpv1uReceiver gtpv1uHandleGpdu
  simp only [if_neg header, msgHeader_inside tunnelled.header, bind, Except.bind, tunnelled.msgLength,
    tunnelled.msgType, tunnelled.version, tunnelled.pt, ne_eq, tunnelled.known, tunnelled.tunnel]
  cases handleTunnel fuel owner udpData.bytes (headerOf udpData.bytes) <;> rfl

theorem receivedWithin_tunnelled : ReceivedWithin globGtp h udpData ↔
    ∃ fuel received, handleTunnel fuel owner udpData.bytes (headerOf udpData.bytes) = .ok received ∧
      received.Within udpData.bytes.length := by
  constructor
  · rintro ⟨fuel, result, returned, inside⟩
    rw [receive_tunnel tunnelled] at returned
    cases outcome : handleTunnel fuel owner udpData.bytes (headerOf udpData.bytes) with
    | error fault =>
      rw [outcome] at returned
      cases returned
    | ok received =>
      rw [outcome] at returned
      cases returned
      exact ⟨fuel, received, outcome, inside received rfl⟩
  · rintro ⟨fuel, received, outcome, inside⟩
    refine ⟨fuel, some received, by rw [receive_tunnel tunnelled, outcome]; rfl, ?_⟩
    rintro other ⟨⟩
    exact inside

end

theorem receive_stray (stray : ∀ owner, ¬ Tunnelled globGtp h udpData owner) :
    ∃ result, (∀ fuel, gtpv1uReceiver fuel globGtp h udpData = .ok result) ∧
      ∀ received ∈ result, received.gtpLock = false ∧ received.handed = none := by
  unfold gtpv1uReceiver gtpv1uHandleGpdu
  by_cases header : udpData.bytes.length < 8
  · exact ⟨none, fun _ => if_pos header, by simp⟩
  simp only [if_neg header, msgHeader_inside (not_lt.mp header), bind, Except.bind]
  by_cases msgLength : (headerOf udpData.bytes).msgLength + 8 ≠ udpData.bytes.length
  · exact ⟨none, fun _ => if_pos msgLength, by simp⟩
  simp only [if_neg msgLength]
  by_cases msgType : (headerOf udpData.bytes).msgType ≠ gtpGpdu
  · exact ⟨none, fun _ => if_pos msgType, by simp⟩
  simp only [if_neg msgType]
  by_cases version : (headerOf udpData.bytes).version ≠ 1 ∨ (headerOf udpData.bytes).pt ≠ 1
  · simp only [if_pos version]
    exact ⟨_, fun _ => rfl, by simp⟩
  simp only [if_neg version]
  by_cases unknown : globGtp.instanceKey h ∉ globGtp.instances
  · simp only [if_pos unknown]
    exact ⟨_, fun _ => rfl, by simp⟩
  simp only [if_neg unknown]
  cases tunnel : globGtp.te2ueMapping.lookup (headerOf udpData.bytes).teid with
  | none => exact ⟨_, fun _ => rfl, by simp⟩
  | some owner =>
    rw [not_or, not_not, not_not] at version
    exact absurd ⟨⟨not_lt.mp header, not_not.mp msgLength, not_not.mp msgType, version.1, version.2,
      not_not.mp unknown⟩, tunnel⟩ (stray owner)

/-- A received datagram is handled within its bytes, and its payload handed on from within them, exactly if its
extension headers are complete and the tunnel has a callback for it. -/
theorem gpdu_receive_safe_iff (globGtp : GtpEndPoints) (h : Int) (udpData : Datagram) :
    ReceivedWithin globGtp h udpData ↔ (Extended globGtp h udpData → Chained udpData.bytes) ∧
      ∀ owner, Tunnelled globGtp h udpData owner → ∀ offset, PayloadAt udpData.bytes offset →
        Callable owner udpData.bytes := by
  by_cases known : ∃ owner, Tunnelled globGtp h udpData owner
  · obtain ⟨owner, tunnelled⟩ := known
    have only : ∀ other, Tunnelled globGtp h udpData other → other = owner := fun other there =>
      Option.some.inj (there.tunnel.symm.trans tunnelled.tunnel)
    have callable : (∀ other, Tunnelled globGtp h udpData other → ∀ offset, PayloadAt udpData.bytes offset →
        Callable other udpData.bytes) ↔ ∀ offset, PayloadAt udpData.bytes offset → Callable owner udpData.bytes :=
      ⟨fun all => all owner tunnelled, fun here other there => only other there ▸ here⟩
    rw [receivedWithin_tunnelled tunnelled, tunnelled.extended_iff, callable]
    by_cases e : (headerOf udpData.bytes).e = true
    · rw [handleTunnel_extended e, e]
      exact and_congr_left' ⟨fun chained _ => chained, fun condition => condition rfl⟩
    · obtain ⟨s, handled, within⟩ := handleTunnel_plain e owner
      rw [← within]
      refine ⟨?_, fun ⟨_, inside⟩ => ⟨0, _, handled 0, inside⟩⟩
      rintro ⟨fuel, received, outcome, inside⟩
      cases (handled fuel).symm.trans outcome
      exact ⟨fun extended => absurd extended e, inside⟩
  · rw [not_exists] at known
    obtain ⟨result, returned, quiet⟩ := receive_stray known
    refine iff_of_true ⟨0, result, returned 0, fun received member handed given => ?_⟩
      ⟨fun extended => ?_, fun owner tunnelled => absurd tunnelled (known owner)⟩
    · rw [(quiet received member).2] at given
      cases given
    · obtain ⟨owner, tunnelled⟩ := extended.tunnelled
      exact absurd tunnelled (known owner)

def oneTunnel : GtpEndPoints where
  instances := AList.insert 5 ∅ ∅
  te2ueMapping := AList.insert 1 ⟨7, 4, some 0, 2, none, 1⟩ ∅
  legacyInstanceMapping := 0

/-- A G-PDU for TEID 1 whose first extension header has an unknown type and length 0. -/
def zeroLengthHeader : Datagram :=
  ⟨[0x34, 0xff, 0, 5, 0, 0, 0, 1, 0, 0, 0, 0xc0, 0], by decide⟩

/-- The walk over the extension headers does not end, whatever the number of turns. -/
theorem gpdu_zero_length_hangs : ¬ ReceivedWithin oneTunnel 5 zeroLengthHeader := by
  have extended : Extended oneTunnel 5 zeroLengthHeader :=
    ⟨⟨by decide, by decide, by decide, by decide, by decide, by decide⟩, by decide, by decide⟩
  obtain ⟨owner, tunnelled⟩ := extended.tunnelled
  rw [receivedWithin_tunnelled tunnelled, handleTunnel_extended extended.e]
  rintro ⟨chained, _⟩
  exact absurd (chained.2 12 _ .first (by decide)) (by decide)

end OranSlice.Gtpu
