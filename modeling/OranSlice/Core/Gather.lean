import Mathlib.Tactic

/-! A machine that gathers pieces and gives out one result when it has them all. -/

namespace OranSlice.Gather

open List

variable {σ α ε : Type*} {recv : σ → α → σ × List ε}

def receive (recv : σ → α → σ × List ε) : σ → List α → σ × List ε
  | s, [] => (s, [])
  | s, a :: rest =>
    let (next, events) := recv s a
    let (final, later) := receive recv next rest
    (final, events ++ later)

theorem receive_concat (s : σ) (pieces : List α) (a : α) :
    receive recv s (pieces ++ [a]) = ((recv (receive recv s pieces).1 a).1,
        (receive recv s pieces).2 ++ (recv (receive recv s pieces).1 a).2) := by
  induction pieces generalizing s with
  | nil => simp [receive]
  | cons b rest ih => simp [receive, ih]

theorem forall_concat_prefix {P : List α → α → Prop} {b : α} {rest : List α} :
    (∀ front a, front ++ [a] <+: b :: rest → P front a) ↔
      P [] b ∧ ∀ front a, front ++ [a] <+: rest → P (b :: front) a := by
  constructor
  · intro all
    refine ⟨all [] b (by simp), fun front a inside => all (b :: front) a ?_⟩
    exact cons_prefix_cons.mpr ⟨rfl, inside⟩
  · rintro ⟨first, later⟩ front a inside
    cases front with
    | nil =>
      obtain rfl : a = b := by simpa using inside
      exact first
    | cons c front =>
      obtain ⟨rfl, shorter⟩ := cons_prefix_cons.mp inside
      exact later front a shorter

/-- What the machine does with a piece before and after it has them all, and what it gives out in
between. A piece is `taken` after others where there is room for it. -/
structure Stages (recv : σ → α → σ × List ε) (piece : α → Prop) (taken : List α → σ → α → Prop)
    (full : List α → Prop) (result : ε) (collecting : List α → σ → Prop) (finished : σ → Prop) : Prop where
  collect : ∀ pieces s a, collecting pieces s → ¬ full pieces → piece a → taken pieces s a →
    (full (pieces ++ [a]) → (recv s a).2 = [result] ∧ finished (recv s a).1) ∧
    (¬ full (pieces ++ [a]) → (recv s a).2 = [] ∧ collecting (pieces ++ [a]) (recv s a).1)
  finish : ∀ s a, finished s → piece a → (recv s a).2 = [] ∧ finished (recv s a).1
  grow : ∀ pieces a, full pieces → full (pieces ++ [a])

variable {piece : α → Prop} {taken : List α → σ → α → Prop} {full : List α → Prop} {result : ε}
  {collecting : List α → σ → Prop} {finished : σ → Prop}

theorem Stages.receive_once [DecidablePred full]
    (stages : Stages recv piece taken full result collecting finished) {s : σ} (start : collecting [] s)
    (empty : ¬ full []) (pieces : List α) (allPieces : ∀ a ∈ pieces, piece a)
    (allTaken : ∀ front a, front ++ [a] <+: pieces → ¬ full front → taken front (receive recv s front).1 a) :
    (receive recv s pieces).2 = (if full pieces then [result] else []) ∧
      (full pieces → finished (receive recv s pieces).1) ∧
      (¬ full pieces → collecting pieces (receive recv s pieces).1) := by
  induction pieces using reverseRecOn with
  | nil => exact ⟨(if_neg empty).symm, fun all => absurd all empty, fun _ => start⟩
  | append_singleton pieces a ih =>
    obtain ⟨given, done, open_⟩ := ih (forall_mem_append.mp allPieces).1
      (fun front b inside => allTaken front b (inside.trans (prefix_append pieces [a])))
    have last : piece a := allPieces a (by simp)
    rw [receive_concat]
    by_cases before : full pieces
    · have after := stages.grow pieces a before
      obtain ⟨silent, still⟩ := stages.finish _ a (done before) last
      refine ⟨?_, fun _ => still, fun missing => absurd after missing⟩
      rw [given, silent, if_pos before, if_pos after, append_nil]
    · obtain ⟨complete, partly⟩ := stages.collect pieces _ a (open_ before) before last
        (allTaken pieces a (prefix_refl _) before)
      rw [given, if_neg before, nil_append]
      by_cases after : full (pieces ++ [a])
      · exact ⟨by rw [if_pos after, (complete after).1], fun _ => (complete after).2,
          fun missing => absurd after missing⟩
      · exact ⟨by rw [if_neg after, (partly after).1], fun all => absurd all after, fun _ => (partly after).2⟩

end OranSlice.Gather
