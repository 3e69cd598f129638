import OranSlice.Mac.UeInfo

/-! How a transport block is filled from RLC. -/

namespace OranSlice.Mac

open List

structure SubPdu where
  (lcid len : Nat)
deriving DecidableEq, Repr

def longSubheaderSize : Nat := 3

variable {ρ : Type} (macRlcDataReq : ρ → Nat → Nat → Nat × ρ)

/-- SubPDUs of one logical channel are written while there is room for a subheader and
more than one byte, and RLC has data. -/
def fillFromLc (lcid : Nat) (bytesInBuffer : BitVec 32) :
    Nat → Nat → ρ → List SubPdu × Nat × ρ
  | 0, room, rlc => ([], room, rlc)
  | fuel + 1, room, rlc =>
    if longSubheaderSize + 1 < room then
      let (len, rlc) := macRlcDataReq rlc lcid (min bytesInBuffer.toNat (room - longSubheaderSize))
      if len = 0 then ([], room, rlc)
      else
        let (rest, room, rlc) := fillFromLc lcid bytesInBuffer fuel (room - (len + longSubheaderSize)) rlc
        (⟨lcid, len⟩ :: rest, room, rlc)
    else ([], room, rlc)

variable (ue : UeInfo) (lcid room : Nat) (rlc : ρ)

/-- A logical channel takes part when it has data and, for a DRB, belongs to the slice
that was selected for the UE in this slot. -/
def UeInfo.admitsLc : Bool :=
  (ue.rlcStatus lcid).bytesInBuffer != 0 && !(decide (3 < lcid) && ue.dlSlInfo lcid != ue.sliceForThisSched)

def fillFromLcs (ue : UeInfo) : List LcConfig → Nat → ρ → List SubPdu
  | [], _, _ => []
  | lc :: rest, room, rlc =>
    if ue.admitsLc lc.lcid then
      let (subPdus, room, rlc) :=
        fillFromLc macRlcDataReq lc.lcid (ue.rlcStatus lc.lcid).bytesInBuffer room room rlc
      subPdus ++ fillFromLcs ue rest room rlc
    else fillFromLcs ue rest room rlc

/-- The RLC part of a new transport block, with `room` bytes left after the MAC control
elements. -/
def fillTransportBlock : List SubPdu :=
  if ue.numTotalBytes = 0 then [] else fillFromLcs macRlcDataReq ue ue.lcConfig room rlc

def UeInfo.mayCarryDrbOf (sid : Nat) : Bool :=
  ue.lcConfig.any (fun lc =>
    decide (3 < lc.lcid) && ue.dlSlInfo lc.lcid == sid && ue.sliceForThisSched == sid)

variable {macRlcDataReq}

theorem fillFromLc_lcid (bytesInBuffer : BitVec 32) (fuel room : Nat) (rlc : ρ) :
    ∀ sub ∈ (fillFromLc macRlcDataReq lcid bytesInBuffer fuel room rlc).1, sub.lcid = lcid := by
  induction fuel generalizing room rlc with
  | zero => simp [fillFromLc]
  | succ fuel ih =>
    unfold fillFromLc
    split
    · dsimp only
      split
      · simp
      intro sub member
      rcases mem_cons.mp member with rfl | later
      · rfl
      · exact ih _ _ sub later
    · simp

theorem fillFromLcs_admitted (lcs : List LcConfig) (room : Nat) (rlc : ρ) :
    ∀ sub ∈ fillFromLcs macRlcDataReq ue lcs room rlc,
      ue.admitsLc sub.lcid = true ∧ ∃ lc ∈ lcs, lc.lcid = sub.lcid := by
  induction lcs generalizing room rlc with
  | nil => simp [fillFromLcs]
  | cons lc rest ih =>
    intro sub member
    unfold fillFromLcs at member
    have fromRest : ∀ room rlc, sub ∈ fillFromLcs macRlcDataReq ue rest room rlc →
        ue.admitsLc sub.lcid = true ∧ ∃ other ∈ lc :: rest, other.lcid = sub.lcid := by
      intro room rlc later
      obtain ⟨admitted, other, inside, same⟩ := ih room rlc sub later
      exact ⟨admitted, other, mem_cons_of_mem _ inside, same⟩
    split_ifs at member with admitted
    · rcases mem_append.mp member with here | later
      · have same := fillFromLc_lcid _ _ _ _ _ sub here
        exact ⟨same ▸ admitted, lc, mem_cons_self, same.symm⟩
      · exact fromRest _ _ later
    · exact fromRest _ _ member

theorem fillTransportBlock_slice (sub : SubPdu)
    (carried : sub ∈ fillTransportBlock macRlcDataReq ue room rlc) (drb : 3 < sub.lcid) :
    ue.dlSlInfo sub.lcid = ue.sliceForThisSched ∧
      ue.mayCarryDrbOf (ue.dlSlInfo sub.lcid) = true := by
  unfold fillTransportBlock at carried
  split at carried
  · simp at carried
  obtain ⟨admitted, lc, configured, same⟩ := fillFromLcs_admitted ue ue.lcConfig room rlc sub carried
  have selected : ue.dlSlInfo sub.lcid = ue.sliceForThisSched := by
    simp only [UeInfo.admitsLc, drb, decide_true, Bool.true_and, Bool.and_eq_true,
      Bool.not_eq_true', bne_eq_false_iff_eq] at admitted
    exact admitted.2
  refine ⟨selected, any_eq_true.mpr ⟨lc, configured, ?_⟩⟩
  simp [same, drb, selected]

end OranSlice.Mac
