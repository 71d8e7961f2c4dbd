/-
# Koisyn.Checksum.ChunkView — the iterators of `chunk_view`, and the groups they go over

`HashIntRange_impl` goes over its range with two nested loops over a `chunk_view`.  The view has one
iterator into the range, `_Current`, which its outer and its inner iterators share and both move:
`_Remainder` counts the elements left in the present chunk, and is zero between two chunks.  So where
the next chunk begins depends on how far the inner loop has come.

* `ChunkView`, and the iterators' operations as the source has them (`std_ranges.h`);
* `forChunks`: two nested range-based loops over the view, for any bodies; the inner one may `break`;
* `forChunks_eq`: they go over the consecutive groups of `_Count` elements and no others, wherever the
  inner loop breaks, and never read past the end of the range;
* `hashIntRangeOverView_eq`: so `HashIntRange_impl` on the view's iterators is `hashIntRange`.

An operation on an iterator that has no value, or that is at its end, is undefined and gives `none`.
-/
import Koisyn.Checksum.IntRange

namespace Koisyn.Checksum

open Koisyn.Theory

set_option autoImplicit false

variable {α : Type}

/-! ## The view and its iterators -/

/-- `chunk_view`; an iterator into the range is what it has still to go over. -/
structure ChunkView (α : Type) where
  range : List α
  count : Int
  remainder : Int := 0
  current : Option (List α) := none

namespace ChunkView

variable (v : ChunkView α)

/-- `chunk_view::begin`. -/
def begin : ChunkView α := { v with current := some v.range, remainder := v.count }

/-- `_Outer_iterator::_Is_end`. -/
def isEnd : Option Bool := v.current.map fun rest => rest.isEmpty && v.remainder != 0

/-- `_Outer_iterator::operator++`; `ranges::advance` stops at the end of the range. -/
def outerNext : Option (ChunkView α) :=
  v.current.bind fun rest =>
    if v.remainder < 0 then none
    else some { v with current := some (rest.drop v.remainder.toNat), remainder := v.count }

/-- `_Outer_iterator::value_type::size`. -/
def chunkSize : Option Int := v.current.map fun rest => min v.remainder rest.length

/-- `_Inner_iterator::operator==` with the sentinel. -/
def isChunkEnd : Bool := v.remainder == 0

/-- `_Inner_iterator::operator*`. -/
def element : Option α := v.current.bind List.head?

/-- `_Inner_iterator::operator++`. -/
def innerNext : Option (ChunkView α) :=
  v.current.bind fun
    | [] => none
    | _ :: rest =>
        some { v with current := some rest, remainder := if rest.isEmpty then 0 else v.remainder - 1 }

end ChunkView

/-! ## Nested loops over it -/

/-- What a nested loop does: before the elements of a chunk, given its size; with an element, and
whether it breaks then; and after the elements. -/
structure ChunkBody (α σ : Type) where
  enter : σ → Int → σ
  element : σ → α → Option (σ × Bool)
  leave : σ → Option σ

/-- The view and the caller's locals in the inner loop; `broken` once it has executed `break`. -/
structure ChunkLoop (α σ : Type) where
  view : ChunkView α
  locals : σ
  broken : Bool := false

section Loops

variable {σ : Type} (body : ChunkBody α σ)

def elementRound (s : ChunkLoop α σ) : Option (ChunkLoop α σ) :=
  s.view.element.bind fun elm => (body.element s.locals elm).bind fun
    | (locals, true) => some ⟨s.view, locals, true⟩
    | (locals, false) => s.view.innerNext.map fun view => ⟨view, locals, false⟩

/-- `for (auto &&elm : ck)`. -/
def forElements (s : ChunkLoop α σ) : Option (ChunkLoop α σ) :=
  WhileLoop.run (fun s => !s.broken && !s.view.isChunkEnd) (elementRound body)
    s.view.remainder.toNat s

def chunkRound (s : ChunkLoop α σ) : Option (ChunkLoop α σ) :=
  s.view.isEnd.bind fun _ => s.view.chunkSize.bind fun size =>
    (forElements body ⟨s.view, body.enter s.locals size, false⟩).bind fun t =>
      (body.leave t.locals).bind fun locals =>
        t.view.outerNext.map fun view => ⟨view, locals, false⟩

/-- `for (auto &&ck : view) for (auto &&elm : ck)`. -/
def forChunks (view : ChunkView α) (locals : σ) : Option σ :=
  (WhileLoop.run (fun s => s.view.isEnd != some true) (chunkRound body) view.range.length
    ⟨view.begin, locals, false⟩).map ChunkLoop.locals

/-! ## What they do -/

/-- The elements of a chunk, up to the one after which the loop breaks. -/
def readElements : σ → List α → Option σ
  | s, [] => some s
  | s, elm :: ck => (body.element s elm).bind fun
      | (s, true) => some s
      | (s, false) => readElements s ck

/-- One chunk. -/
def readChunk (s : σ) (ck : List α) : Option σ :=
  (readElements body (body.enter s ck.length) ck).bind body.leave

/-- The view in a chunk: `left` of its elements are to come, and then `rest` of the range. -/
def inChunk (range : List α) (count : Nat) (rest : List α) (left : Nat) : ChunkView α :=
  ⟨range, count, left, some rest⟩

variable {body}
variable {range rest : List α} {count left : Nat}

/-- The inner loop has run: the outer iterator's `++` goes on at `next`. -/
structure Stopped (range : List α) (count : Nat) (next : List α) (s : ChunkLoop α σ) : Prop where
  view : ∃ rest left, s.view = inChunk range count rest left ∧ rest.drop left = next

theorem Stopped.outerNext {next : List α} {s : ChunkLoop α σ} (stopped : Stopped range count next s) :
    s.view.outerNext = some (inChunk range count next count) := by
  obtain ⟨rest, left, view, gone⟩ := stopped.view
  have counts : ¬ ((left : Int) < 0) := by omega
  rw [view, ChunkView.outerNext, inChunk, Option.bind_some, if_neg counts, Int.toNat_natCast, gone]
  rfl

/-- One element of the inner loop. -/
theorem elementRound_cons (elm : α) (s : σ) :
    elementRound body ⟨inChunk range count (elm :: rest) (left + 1), s, false⟩ =
      (body.element s elm).map fun r =>
        if r.2 then ⟨inChunk range count (elm :: rest) (left + 1), r.1, true⟩
        else ⟨inChunk range count rest (if rest.isEmpty then 0 else left), r.1, false⟩ := by
  have next : (inChunk range count (elm :: rest) (left + 1)).innerNext =
      some (inChunk range count rest (if rest.isEmpty then 0 else left)) := by
    cases rest <;> simp [ChunkView.innerNext, inChunk]
  simp only [elementRound, next]
  show (body.element s elm).bind _ = _
  cases body.element s elm with
  | none => rfl
  | some r =>
      obtain ⟨locals, stops⟩ := r
      cases stops <;> rfl

variable (body range count) in
/-- **The inner loop** reads what is left of its chunk until it breaks, and leaves the view where the
next chunk begins once the outer iterator has moved. -/
theorem run_elementRound (fuel : Nat) (rest : List α) (left : Nat) (s : σ) (enough : left ≤ fuel)
    (inside : left = 0 ∨ rest ≠ []) :
    let ended := WhileLoop.run (fun s => !s.broken && !s.view.isChunkEnd) (elementRound body) fuel
      ⟨inChunk range count rest left, s, false⟩
    ended.map ChunkLoop.locals = readElements body s (rest.take left) ∧
      ∀ t, ended = some t → Stopped range count (rest.drop left) t := by
  have finished : ∀ (fuel : Nat) (rest : List α) (s : σ),
      WhileLoop.run (fun s => !s.broken && !s.view.isChunkEnd) (elementRound body) fuel
        ⟨inChunk range count rest 0, s, false⟩ = some ⟨inChunk range count rest 0, s, false⟩ :=
    fun fuel rest s => WhileLoop.run_of_done rfl fuel
  induction fuel generalizing rest left s with
  | zero =>
      obtain rfl : left = 0 := Nat.le_zero.1 enough
      rw [finished]
      refine ⟨rfl, ?_⟩
      rintro t ⟨⟩
      exact ⟨rest, 0, rfl, rfl⟩
  | succ fuel ih =>
      cases left with
      | zero =>
          rw [finished]
          refine ⟨rfl, ?_⟩
          rintro t ⟨⟩
          exact ⟨rest, 0, rfl, rfl⟩
      | succ left =>
          obtain ⟨elm, rest, rfl⟩ : ∃ elm more, rest = elm :: more := by
            rcases inside with none | some
            · cases none
            · exact List.exists_cons_of_ne_nil some
          have going : (!false && !(inChunk range count (elm :: rest) (left + 1)).isChunkEnd) =
              true := by
            simp [ChunkView.isChunkEnd, inChunk]
            omega
          simp only [WhileLoop.run, going, if_true, elementRound_cons, List.take_succ_cons,
            List.drop_succ_cons, readElements]
          cases body.element s elm with
          | none => exact ⟨rfl, fun t taken => by cases taken⟩
          | some r =>
              obtain ⟨locals, stops⟩ := r
              cases stops with
              | true =>
                  simp only [Option.map_some, Option.bind_some, if_true]
                  rw [WhileLoop.run_of_done (by rfl)]
                  refine ⟨rfl, ?_⟩
                  rintro t ⟨⟩
                  exact ⟨elm :: rest, left + 1, rfl, rfl⟩
              | false =>
                  have next := ih rest (if rest.isEmpty then 0 else left) locals
                    (by split <;> omega)
                    (by cases rest <;> simp)
                  have same : rest.take (if rest.isEmpty then 0 else left) = rest.take left ∧
                      rest.drop (if rest.isEmpty then 0 else left) = rest.drop left := by
                    cases rest <;> simp
                  rw [same.1, same.2] at next
                  exact next

/-- One chunk, at the head of the outer loop. -/
theorem chunkRound_eq (s : σ) (more : rest ≠ []) :
    chunkRound body ⟨inChunk range count rest count, s, false⟩ =
      (readChunk body s (rest.take count)).map fun s =>
        ⟨inChunk range count (rest.drop count) count, s, false⟩ := by
  have size : (inChunk range count rest count).chunkSize = some ((rest.take count).length : Int) := by
    simp [ChunkView.chunkSize, inChunk]
  obtain ⟨locals, stopped⟩ := run_elementRound body range count count rest count
    (body.enter s (rest.take count).length) le_rfl (.inr more)
  have known : (inChunk range count rest count).isEnd = some (rest.isEmpty && (count : Int) != 0) :=
    rfl
  have steps : (inChunk range count rest count).remainder.toNat = count := rfl
  simp only [chunkRound, forElements, known, size, steps, Option.bind_some, readChunk, ← locals]
  generalize WhileLoop.run _ _ count _ = ended at stopped
  cases ended with
  | none => rfl
  | some t =>
      simp only [Option.bind_some, Option.map_some, (stopped t rfl).outerNext]
      cases body.leave t.locals <;> rfl

/-- **The outer loop** goes over what is left of the range in groups. -/
theorem run_chunkRound (fuel : Nat) (rest : List α) (s : σ) (counts : 0 < count)
    (enough : rest.length ≤ fuel) :
    (WhileLoop.run (fun s => s.view.isEnd != some true) (chunkRound body) fuel
        ⟨inChunk range count rest count, s, false⟩).map ChunkLoop.locals =
      (chunkView count rest).foldlM (readChunk body) s := by
  by_cases empty : rest = []
  · subst empty
    have done : (inChunk range count ([] : List α) count).isEnd = some true := by
      simp [ChunkView.isEnd, inChunk]
      omega
    rw [WhileLoop.run_of_done (by simp [done])]
    simp [chunkView]
  · have going : (inChunk range count rest count).isEnd = some false := by
      simp [ChunkView.isEnd, inChunk, empty]
    have shorter : (rest.drop count).length < rest.length := by
      have := List.length_pos_iff.2 empty
      rw [List.length_drop]
      omega
    cases fuel with
    | zero => omega
    | succ fuel =>
        have more := fun s => run_chunkRound fuel (rest.drop count) s counts (by omega)
        simp only [WhileLoop.run, going, chunkRound_eq s empty]
        rw [chunkView_of_ne_nil counts empty, List.foldlM_cons]
        cases readChunk body s (rest.take count) with
        | none => rfl
        | some s => exact more s

/-- **Nested loops over a `chunk_view`** go over the consecutive groups of `_Count` elements, each up to
the element after which the inner loop breaks, and end; nothing undefined is done with an iterator.
Where an earlier loop has left the view's iterator does not matter. -/
theorem forChunks_eq (body : ChunkBody α σ) (range : List α) (count : Nat) (counts : 0 < count)
    (remainder : Int) (current : Option (List α)) (s : σ) :
    forChunks body ⟨range, count, remainder, current⟩ s =
      (chunkView count range).foldlM (readChunk body) s :=
  run_chunkRound range.length range s counts le_rfl

end Loops

/-- The first element of each chunk is added up, and the rest left with `break`. -/
def addHeads : ChunkBody Nat Nat where
  enter s _ := s
  element s elm := some (s + elm, true)
  leave := some

/-- The view has been used before. -/
theorem forChunks_eq_used :
    forChunks addHeads ⟨[1, 20, 3, 40, 5], 2, 1, some [40]⟩ 0 =
      (chunkView 2 [1, 20, 3, 40, 5]).foldlM (readChunk addHeads) 0 :=
  forChunks_eq addHeads _ 2 (by decide) 1 (some [40]) 0

example : forChunks addHeads ⟨[1, 20, 3, 40, 5], 2, 1, some [40]⟩ 0 = some 9 := by decide

/-! ## `HashIntRange_impl` -/

variable {T : IntType}

/-- The body of the loops of `HashIntRange_impl`; the first local is `hashSum`. -/
def hashIntRangeBody (T : IntType) : ChunkBody (IntLike T) (BitVec 64 × ChunkLocals) where
  enter s _ := (s.1, ⟨0, 0, s.2.count⟩)
  element s elm := (hashChunkElement s.2 elm).map fun r => ((s.1, r), false)
  leave s := some (mixValue64 [s.1, s.2.sum1], s.2)

/-- `HashIntRange_impl`, on the iterators of `chunk_view(rng, 8 / sizeof(T))`. -/
def hashIntRangeOverView (rng : List (IntLike T)) : Option (BitVec 64) :=
  (forChunks (hashIntRangeBody T) ⟨rng, (8 / T.bytes : Nat), 0, none⟩ (0, ⟨0, 0, 0⟩)).map fun s =>
    mixValue64 [s.1, s.2.count]

theorem readElements_hashIntRange (hashSum : BitVec 64) (s : ChunkLocals) (ck : List (IntLike T)) :
    readElements (hashIntRangeBody T) (hashSum, s) ck =
      (ck.foldlM hashChunkElement s).map fun r => (hashSum, r) := by
  induction ck generalizing s with
  | nil => rfl
  | cons elm ck ih =>
      rw [List.foldlM_cons]
      show ((hashChunkElement s elm).map _).bind _ = _
      cases hashChunkElement s elm with
      | none => rfl
      | some r => exact ih r

theorem foldlM_readChunk_hashIntRange (cks : List (List (IntLike T))) (hashSum : BitVec 64)
    (s : ChunkLocals) :
    (cks.foldlM (readChunk (hashIntRangeBody T)) (hashSum, s)).map (fun r => (r.1, r.2.count)) =
      cks.foldlM hashChunk (hashSum, s.count) := by
  induction cks generalizing hashSum s with
  | nil => rfl
  | cons ck cks ih =>
      rw [List.foldlM_cons, List.foldlM_cons, readChunk]
      show (((readElements (hashIntRangeBody T) (hashSum, ⟨0, 0, s.count⟩) ck).bind _).bind _).map _ = _
      rw [readElements_hashIntRange, hashChunk]
      cases ck.foldlM hashChunkElement ⟨0, 0, s.count⟩ with
      | none => rfl
      | some r => exact ih _ r

/-- **The iterators of `chunk_view` refine its groups**: hashing a range of integers over them is
hashing the groups one after the other. -/
theorem hashIntRangeOverView_eq (rng : List (IntLike T)) :
    hashIntRangeOverView rng = hashIntRange rng := by
  rw [hashIntRangeOverView, forChunks_eq _ _ _ (groupCount_pos T), hashIntRange,
    ← foldlM_readChunk_hashIntRange _ 0 ⟨0, 0, 0⟩, Option.map_map]
  rfl

end Koisyn.Checksum
