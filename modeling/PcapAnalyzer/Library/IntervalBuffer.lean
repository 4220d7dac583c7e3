import Mathlib.Algebra.BigOperators.Group.List.Basic
import Mathlib.Algebra.Order.Ring.Nat
import Mathlib.Data.List.TakeWhile
import Mathlib.Order.Bounds.Basic
import Mathlib.Order.MinMax

/-!
# Reordering by a buffer of intervals

Pieces of a line `0, 1, 2, ...` arrive in any order, cut and duplicated. A buffer
keeps the front it has reached and the pieces that lie ahead of it, sorted by
offset and limited to a total length. As long as the limit refuses nothing, the
front is the end of the longest covered initial segment, whatever the order was.
-/

namespace IntervalBuffer

set_option autoImplicit false

structure Piece where
  offset : Nat
  length : Nat
  deriving DecidableEq

def Piece.stop (piece : Piece) : Nat := piece.offset + piece.length

def Piece.Covers (piece : Piece) (i : Nat) : Prop := piece.offset ≤ i ∧ i < piece.stop

structure Buffer where
  front : Nat
  pending : List Piece

def total (pieces : List Piece) : Nat := (pieces.map Piece.length).sum

@[simp] theorem total_nil : total [] = 0 := rfl

@[simp] theorem total_cons (piece : Piece) (rest : List Piece) :
    total (piece :: rest) = piece.length + total rest := by
  simp [total]

@[simp] theorem total_append (left right : List Piece) :
    total (left ++ right) = total left + total right := by
  simp [total]

/-- Absorb the pending pieces the front has reached. -/
def drainFrom : List Piece → Nat → Buffer
  | [], front => ⟨front, []⟩
  | piece :: rest, front =>
      if front < piece.offset then ⟨front, piece :: rest⟩
      else drainFrom rest (max front piece.stop)

/-- Store a piece that lies ahead, in order; a longer one replaces a shorter one
of the same offset, and the limit may refuse it. -/
def hold (limit : Nat) (buffer : Buffer) (piece : Piece) : Buffer :=
  let below := fun (other : Piece) => decide (other.offset < piece.offset)
  let before := buffer.pending.takeWhile below
  let insert := fun (after : List Piece) =>
    if total buffer.pending + piece.length ≤ limit then
      { buffer with pending := before ++ piece :: after }
    else buffer
  match buffer.pending.dropWhile below with
  | [] => insert []
  | other :: rest =>
      if other.offset = piece.offset then
        if piece.length > other.length ∧
            total buffer.pending + piece.length - other.length ≤ limit then
          { buffer with pending := before ++ piece :: rest }
        else buffer
      else insert (other :: rest)

def accept (limit : Nat) (buffer : Buffer) (piece : Piece) : Buffer :=
  if buffer.front < piece.offset then hold limit buffer piece
  else drainFrom buffer.pending (max buffer.front piece.stop)

/-- The pending pieces are sorted and all of them lie ahead. -/
structure Ordered (buffer : Buffer) : Prop where
  sorted : buffer.pending.Pairwise fun left right => left.offset < right.offset
  ahead : ∀ piece ∈ buffer.pending, buffer.front < piece.offset

/-- Everything `hold` can do. -/
inductive Held (limit : Nat) (buffer : Buffer) (piece : Piece) : Buffer → Prop
  | refused (full : limit < total buffer.pending + piece.length ∨
      ∃ other ∈ buffer.pending, other.offset = piece.offset ∧ piece.length ≤ other.length) :
      Held limit buffer piece buffer
  | inserted (before after : List Piece) (split : buffer.pending = before ++ after)
      (below : ∀ other ∈ before, other.offset < piece.offset)
      (above : ∀ other ∈ after, piece.offset < other.offset)
      (room : total buffer.pending + piece.length ≤ limit) :
      Held limit buffer piece { buffer with pending := before ++ piece :: after }
  | replaced (before : List Piece) (other : Piece) (rest : List Piece)
      (split : buffer.pending = before ++ other :: rest)
      (below : ∀ earlier ∈ before, earlier.offset < piece.offset)
      (same : other.offset = piece.offset) (longer : other.length < piece.length)
      (above : ∀ later ∈ rest, piece.offset < later.offset)
      (room : total buffer.pending + piece.length - other.length ≤ limit) :
      Held limit buffer piece { buffer with pending := before ++ piece :: rest }

theorem hold_cases (limit : Nat) (buffer : Buffer) (piece : Piece)
    (sorted : buffer.pending.Pairwise fun left right => left.offset < right.offset) :
    Held limit buffer piece (hold limit buffer piece) := by
  let below := fun (other : Piece) => decide (other.offset < piece.offset)
  have split : buffer.pending.takeWhile below ++ buffer.pending.dropWhile below =
      buffer.pending := List.takeWhile_append_dropWhile
  have smaller : ∀ other ∈ buffer.pending.takeWhile below, other.offset < piece.offset := by
    intro other member
    simpa [below] using List.mem_takeWhile_imp member
  simp only [hold]
  cases tail : buffer.pending.dropWhile below with
  | nil =>
      rw [tail] at split
      split_ifs with room
      · exact .inserted _ [] split.symm smaller (by simp) room
      · exact .refused (.inl (by omega))
  | cons other rest =>
      have reached : ¬ other.offset < piece.offset := by
        have head := List.head_dropWhile_not below (l := buffer.pending) (by simp [tail])
        simpa [below, tail] using head
      rw [tail] at split
      have later : ∀ next ∈ rest, other.offset < next.offset := by
        rw [← split, List.pairwise_append] at sorted
        exact (List.pairwise_cons.mp sorted.2.1).1
      dsimp only
      split_ifs with same room room
      · exact .replaced _ other rest split.symm smaller same (by omega)
          (by intro next member; have := later next member; omega) room.2
      · by_cases shorter : piece.length ≤ other.length
        · exact .refused (.inr ⟨other, by rw [← split]; simp, same, shorter⟩)
        · exact .refused (.inl (by omega))
      · exact .inserted _ (other :: rest) split.symm smaller
          (by
            intro next member
            rcases List.mem_cons.mp member with rfl | member
            · omega
            · have := later next member
              omega) room
      · exact .refused (.inl (by omega))

section Hold

variable {limit : Nat} {buffer result : Buffer} {piece : Piece}

theorem Held.front_eq (held : Held limit buffer piece result) : result.front = buffer.front := by
  cases held <;> rfl

theorem Held.ordered (held : Held limit buffer piece result) (ordered : Ordered buffer)
    (ahead : buffer.front < piece.offset) : Ordered result := by
  obtain ⟨sorted, before_front⟩ := ordered
  cases held with
  | refused => exact ⟨sorted, before_front⟩
  | inserted before after split below above =>
      rw [split, List.pairwise_append] at sorted
      rw [split] at before_front
      constructor
      · rw [List.pairwise_append, List.pairwise_cons]
        refine ⟨sorted.1, ⟨above, sorted.2.1⟩, ?_⟩
        intro left leftMember right rightMember
        rcases List.mem_cons.mp rightMember with rfl | rightMember
        · exact below left leftMember
        · exact sorted.2.2 left leftMember right rightMember
      · intro other member
        simp only [List.mem_append, List.mem_cons] at member before_front
        rcases member with member | rfl | member
        · exact before_front other (.inl member)
        · exact ahead
        · exact before_front other (.inr member)
  | replaced before other rest split below same longer above =>
      rw [split, List.pairwise_append, List.pairwise_cons] at sorted
      rw [split] at before_front
      constructor
      · rw [List.pairwise_append, List.pairwise_cons]
        refine ⟨sorted.1, ⟨above, sorted.2.1.2⟩, ?_⟩
        intro left leftMember right rightMember
        rcases List.mem_cons.mp rightMember with rfl | rightMember
        · exact below left leftMember
        · exact sorted.2.2 left leftMember right (by simp [rightMember])
      · intro earlier member
        simp only [List.mem_append, List.mem_cons] at member before_front
        rcases member with member | rfl | member
        · exact before_front earlier (.inl member)
        · exact ahead
        · exact before_front earlier (.inr (.inr member))

theorem Held.total_le_limit (held : Held limit buffer piece result)
    (within : total buffer.pending ≤ limit) : total result.pending ≤ limit := by
  cases held with
  | refused => exact within
  | inserted before after split below above room =>
      rw [split] at room
      simp at room ⊢
      omega
  | replaced before other rest split below same longer above room =>
      rw [split] at room
      simp at room ⊢
      omega

theorem Held.total_le (held : Held limit buffer piece result) :
    total result.pending ≤ total buffer.pending + piece.length := by
  cases held with
  | refused => omega
  | inserted before after split =>
      rw [split]
      simp
      omega
  | replaced before other rest split =>
      rw [split]
      simp
      omega

theorem Held.mem (held : Held limit buffer piece result) (other : Piece)
    (member : other ∈ result.pending) : other = piece ∨ other ∈ buffer.pending := by
  cases held with
  | refused => exact .inr member
  | inserted before after split =>
      rw [split]
      simp at member ⊢
      tauto
  | replaced before old rest split =>
      rw [split]
      simp at member ⊢
      tauto

/-- With room in the buffer no covered position is lost: a piece that is not
stored, or is replaced, lies inside the one of the same offset. -/
theorem Held.covers (held : Held limit buffer piece result)
    (room : total buffer.pending + piece.length ≤ limit) (i : Nat)
    (covered : piece.Covers i ∨ ∃ other ∈ buffer.pending, other.Covers i) :
    ∃ other ∈ result.pending, other.Covers i := by
  cases held with
  | refused full =>
      rcases full with full | ⟨other, member, same, shorter⟩
      · omega
      · rcases covered with covered | covered
        · refine ⟨other, member, ?_⟩
          simp only [Piece.Covers, Piece.stop] at covered ⊢
          omega
        · exact covered
  | inserted before after split =>
      rw [split] at covered
      rcases covered with covered | ⟨other, member, covered⟩
      · exact ⟨piece, by simp, covered⟩
      · refine ⟨other, ?_, covered⟩
        simp at member ⊢
        tauto
  | replaced before other rest split below same longer =>
      rw [split] at covered
      rcases covered with covered | ⟨found, member, covered⟩
      · exact ⟨piece, by simp, covered⟩
      · simp only [List.mem_append, List.mem_cons] at member
        rcases member with member | rfl | member
        · exact ⟨found, by simp [member], covered⟩
        · refine ⟨piece, by simp, ?_⟩
          simp only [Piece.Covers, Piece.stop] at covered ⊢
          omega
        · exact ⟨found, by simp [member], covered⟩

end Hold

section Drain

variable (pending : List Piece) (front : Nat)

theorem drain_ordered (sorted : pending.Pairwise fun left right => left.offset < right.offset) :
    Ordered (drainFrom pending front) := by
  induction pending generalizing front with
  | nil => exact ⟨List.Pairwise.nil, by simp [drainFrom]⟩
  | cons piece rest ih =>
      simp only [drainFrom]
      split_ifs with gap
      · refine ⟨sorted, ?_⟩
        intro other member
        rcases List.mem_cons.mp member with rfl | member
        · exact gap
        · exact lt_trans gap ((List.pairwise_cons.mp sorted).1 other member)
      · exact ih _ (List.pairwise_cons.mp sorted).2

theorem drain_mem (other : Piece) (member : other ∈ (drainFrom pending front).pending) :
    other ∈ pending := by
  induction pending generalizing front with
  | nil => simp [drainFrom] at member
  | cons piece rest ih =>
      simp only [drainFrom] at member
      split_ifs at member
      · exact member
      · exact List.mem_cons_of_mem _ (ih _ member)

theorem drain_total_le : total (drainFrom pending front).pending ≤ total pending := by
  induction pending generalizing front with
  | nil => exact le_rfl
  | cons piece rest ih =>
      simp only [drainFrom]
      split_ifs
      · exact le_rfl
      · exact le_trans (ih _) (by simp)

/-- The front only runs over positions a pending piece covers. -/
theorem drain_front_covered (i : Nat) (reached : i < (drainFrom pending front).front) :
    i < front ∨ ∃ piece ∈ pending, piece.Covers i := by
  induction pending generalizing front with
  | nil => exact .inl reached
  | cons piece rest ih =>
      simp only [drainFrom] at reached
      split_ifs at reached with gap
      · exact .inl reached
      · rcases ih _ reached with earlier | ⟨other, member, covers⟩
        · by_cases before : i < front
          · exact .inl before
          · have inside : i < piece.stop := by
              rcases lt_max_iff.mp earlier with earlier | earlier
              · exact absurd earlier before
              · exact earlier
            exact .inr ⟨piece, by simp, by omega, inside⟩
        · exact .inr ⟨other, by simp [member], covers⟩

theorem drain_keeps (i : Nat) (covered : i < front ∨ ∃ piece ∈ pending, piece.Covers i) :
    i < (drainFrom pending front).front ∨
      ∃ piece ∈ (drainFrom pending front).pending, piece.Covers i := by
  induction pending generalizing front with
  | nil => simpa [drainFrom] using covered
  | cons piece rest ih =>
      simp only [drainFrom]
      split_ifs
      · exact covered
      · apply ih
        rcases covered with before | ⟨other, member, covers⟩
        · exact .inl (lt_of_lt_of_le before (le_max_left _ _))
        · rcases List.mem_cons.mp member with rfl | member
          · exact .inl (lt_of_lt_of_le covers.2 (le_max_right _ _))
          · exact .inr ⟨other, member, covers⟩

/-- Nothing is reached while a gap lies in front of every pending piece. -/
theorem drain_stuck (ahead : ∀ piece ∈ pending, front < piece.offset) :
    drainFrom pending front = ⟨front, pending⟩ := by
  cases pending with
  | nil => rfl
  | cons piece rest => simp [drainFrom, ahead piece (by simp)]

end Drain

section Accept

variable {limit : Nat} {buffer : Buffer} {piece : Piece}

theorem accept_ordered (ordered : Ordered buffer) : Ordered (accept limit buffer piece) := by
  unfold accept
  split_ifs with ahead
  · exact (hold_cases limit buffer piece ordered.sorted).ordered ordered ahead
  · exact drain_ordered _ _ ordered.sorted

theorem accept_total_le_limit (ordered : Ordered buffer)
    (within : total buffer.pending ≤ limit) :
    total (accept limit buffer piece).pending ≤ limit := by
  unfold accept
  split_ifs
  · exact (hold_cases limit buffer piece ordered.sorted).total_le_limit within
  · exact le_trans (drain_total_le _ _) within

theorem accept_total_le (limit : Nat) (piece : Piece) (ordered : Ordered buffer) :
    total (accept limit buffer piece).pending ≤ total buffer.pending + piece.length := by
  unfold accept
  split_ifs
  · exact (hold_cases limit buffer piece ordered.sorted).total_le
  · exact le_trans (drain_total_le _ _) (Nat.le_add_right _ _)

theorem accept_mem (ordered : Ordered buffer) (other : Piece)
    (member : other ∈ (accept limit buffer piece).pending) :
    other = piece ∨ other ∈ buffer.pending := by
  unfold accept at member
  split_ifs at member
  · exact (hold_cases limit buffer piece ordered.sorted).mem other member
  · exact .inr (drain_mem _ _ other member)

end Accept

/-- What a buffer knows about the pieces it was sent: they are either passed or
pending, and nothing else is. -/
structure Tracks (sent : List Piece) (buffer : Buffer) : Prop where
  reached : ∀ i < buffer.front, ∃ piece ∈ sent, piece.Covers i
  kept : ∀ piece ∈ sent, ∀ i, piece.Covers i →
    i < buffer.front ∨ ∃ other ∈ buffer.pending, other.Covers i
  genuine : ∀ piece ∈ buffer.pending, piece ∈ sent

theorem tracks_empty : Tracks [] ⟨0, []⟩ :=
  ⟨by intro i reached; exact absurd reached (Nat.not_lt_zero i), by simp, by simp⟩

theorem accept_tracks {limit : Nat} {sent : List Piece} {buffer : Buffer} {piece : Piece}
    (ordered : Ordered buffer) (tracks : Tracks sent buffer)
    (room : total buffer.pending + piece.length ≤ limit) :
    Tracks (piece :: sent) (accept limit buffer piece) := by
  have genuine : ∀ other ∈ (accept limit buffer piece).pending, other ∈ piece :: sent := by
    intro other member
    rcases accept_mem ordered other member with rfl | member
    · exact List.mem_cons_self
    · exact List.mem_cons_of_mem _ (tracks.genuine other member)
  unfold accept at genuine ⊢
  split_ifs at genuine ⊢ with ahead
  · have held := hold_cases limit buffer piece ordered.sorted
    constructor
    · intro i reached
      rw [held.front_eq] at reached
      obtain ⟨other, member, covers⟩ := tracks.reached i reached
      exact ⟨other, List.mem_cons_of_mem _ member, covers⟩
    · intro other member i covers
      rw [held.front_eq]
      rcases List.mem_cons.mp member with rfl | member
      · exact .inr (held.covers room i (.inl covers))
      · rcases tracks.kept other member i covers with passed | pending
        · exact .inl passed
        · exact .inr (held.covers room i (.inr pending))
    · exact genuine
  · constructor
    · intro i reached
      rcases drain_front_covered _ _ i reached with before | ⟨other, member, covers⟩
      · by_cases passed : i < buffer.front
        · obtain ⟨other, member, covers⟩ := tracks.reached i passed
          exact ⟨other, List.mem_cons_of_mem _ member, covers⟩
        · have inside : i < piece.stop := by
            rcases lt_max_iff.mp before with before | before
            · exact absurd before passed
            · exact before
          exact ⟨piece, List.mem_cons_self, by omega, inside⟩
      · exact ⟨other, List.mem_cons_of_mem _ (tracks.genuine other member), covers⟩
    · intro other member i covers
      apply drain_keeps
      rcases List.mem_cons.mp member with rfl | member
      · exact .inl (lt_of_lt_of_le covers.2 (le_max_right _ _))
      · rcases tracks.kept other member i covers with passed | pending
        · exact .inl (lt_of_lt_of_le passed (le_max_left _ _))
        · exact .inr pending
    · exact genuine

/-- The front is the end of the longest initial segment the sent pieces cover. -/
theorem front_greatest {sent : List Piece} {buffer : Buffer} (ordered : Ordered buffer)
    (tracks : Tracks sent buffer) :
    IsGreatest {k | ∀ i < k, ∃ piece ∈ sent, piece.Covers i} buffer.front := by
  refine ⟨tracks.reached, ?_⟩
  intro k covered
  by_contra beyond
  obtain ⟨piece, member, covers⟩ := covered buffer.front (by omega)
  rcases tracks.kept piece member _ covers with passed | ⟨other, pending, coversFront⟩
  · exact absurd passed (lt_irrefl _)
  · have gap := ordered.ahead other pending
    have start := coversFront.1
    omega

end IntervalBuffer
