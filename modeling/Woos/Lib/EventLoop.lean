import Mathlib.Data.Option.Basic
import Mathlib.Order.Basic

/-!
# Event loops

A program with a window waits for messages.  When it wakes up it handles all those that have come, one
after the other, and draws the window again if one of them asks for it; then it waits again.  It ends
with the message that closes the window.

`EventLoop.run_simulates` compares two such programs: when every message and every drawing have the
same effects in related states and lead to related states, then so has every run.
-/

/-- A program over states `S`, messages `I` and effects `E`.  Handling a message ends the program, or
gives the state, the effects, and whether the window has to be drawn again. -/
structure EventLoop (S I E : Type*) where
  handle : S → I → Option (S × List E × Bool)
  draw : S → S × List E

namespace EventLoop

variable {S S' I E : Type*} (L : EventLoop S I E)

/-- Handle messages, one after the other: the state, the effects, and whether the window has to be
drawn again, unless it is closed. -/
def serve : List I → S → Bool → S × List E × Option Bool
  | [], s, redraw => (s, [], some redraw)
  | i :: is, s, redraw =>
    match L.handle s i with
    | none => (s, [], none)
    | some (s', es, r) =>
      let (t, es', result) := serve is s' (redraw || r)
      (t, es ++ es', result)

/-- One round of the loop: the state, the effects, and whether the program goes on. -/
def round (s : S) (is : List I) : S × List E × Bool :=
  match L.serve is s false with
  | (t, es, none) => (t, es, false)
  | (t, es, some false) => (t, es, true)
  | (t, es, some true) => ((L.draw t).1, es ++ (L.draw t).2, true)

/-- Some rounds, for the messages that each of them finds. -/
def rounds : S → List (List I) → S × List E
  | s, [] => (s, [])
  | s, is :: rest =>
    match L.round s is with
    | (t, es, false) => (t, es)
    | (t, es, true) =>
      let (u, es') := rounds t rest
      (u, es ++ es')

/-- The program: the window is drawn first. -/
def run (s : S) (batches : List (List I)) : S × List E :=
  let (t, es) := L.draw s
  let (u, es') := L.rounds t batches
  (u, es ++ es')

variable {L} {L' : EventLoop S' I E} {R : S → S' → Prop}

/-- Two programs that handle messages and draw in the same way, as far as the effects go, when they
are in related states. -/
structure Simulates (L : EventLoop S I E) (L' : EventLoop S' I E) (R : S → S' → Prop) : Prop where
  handle_none : ∀ {s s' i}, R s s' → (L.handle s i = none ↔ L'.handle s' i = none)
  handle_some : ∀ {s s' i t es b t' es' b'}, R s s' → L.handle s i = some (t, es, b) →
    L'.handle s' i = some (t', es', b') → R t t' ∧ es = es' ∧ b = b'
  draw : ∀ {s s'}, R s s' → R (L.draw s).1 (L'.draw s').1 ∧ (L.draw s).2 = (L'.draw s').2

theorem serve_cons_none {s : S} {i : I} (is : List I) (redraw : Bool) (h : L.handle s i = none) :
  L.serve (i :: is) s redraw = (s, [], none)
  := by
  rw [serve, h]

theorem serve_cons_some {s t : S} {i : I} {es : List E} {r : Bool} (is : List I) (redraw : Bool)
    (h : L.handle s i = some (t, es, r)) :
  L.serve (i :: is) s redraw = ((L.serve is t (redraw || r)).1,
    es ++ (L.serve is t (redraw || r)).2.1, (L.serve is t (redraw || r)).2.2)
  := by
  rw [serve, h]

theorem Simulates.serve (h : Simulates L L' R) {s : S} {s' : S'} (hs : R s s') (is : List I)
    (redraw : Bool) :
  R (L.serve is s redraw).1 (L'.serve is s' redraw).1
    ∧ (L.serve is s redraw).2 = (L'.serve is s' redraw).2
  := by
  induction is generalizing s s' redraw with
  | nil => exact ⟨hs, rfl⟩
  | cons i is ih =>
      cases hhandle : L.handle s i with
      | none =>
          have hhandle' := (h.handle_none hs).mp hhandle
          rw [serve_cons_none is redraw hhandle, serve_cons_none is redraw hhandle']
          exact ⟨hs, rfl⟩
      | some result =>
          obtain ⟨t, es, r⟩ := result
          cases hhandle' : L'.handle s' i with
          | none =>
              rw [(h.handle_none hs).mpr hhandle'] at hhandle
              cases hhandle
          | some result' =>
              obtain ⟨t', es', r'⟩ := result'
              obtain ⟨ht, rfl, rfl⟩ := h.handle_some hs hhandle hhandle'
              obtain ⟨hlast, hrest⟩ := ih ht (redraw || r)
              rw [serve_cons_some is redraw hhandle, serve_cons_some is redraw hhandle', hrest]
              exact ⟨hlast, rfl⟩

theorem Simulates.round (h : Simulates L L' R) {s : S} {s' : S'} (hs : R s s') (is : List I) :
  R (L.round s is).1 (L'.round s' is).1 ∧ (L.round s is).2 = (L'.round s' is).2
  := by
  obtain ⟨hlast, hrest⟩ := h.serve hs is false
  rw [EventLoop.round, EventLoop.round]
  generalize L.serve is s false = result at hlast hrest
  generalize L'.serve is s' false = result' at hlast hrest
  obtain ⟨t, es, r⟩ := result
  obtain ⟨t', rest⟩ := result'
  cases hrest
  rcases r with _ | _ | _
  · exact ⟨hlast, rfl⟩
  · exact ⟨hlast, rfl⟩
  · obtain ⟨hdraw, heffects⟩ := h.draw hlast
    simp only [heffects, and_true]
    exact hdraw

theorem Simulates.rounds (h : Simulates L L' R) {s : S} {s' : S'} (hs : R s s')
    (batches : List (List I)) :
  R (L.rounds s batches).1 (L'.rounds s' batches).1
    ∧ (L.rounds s batches).2 = (L'.rounds s' batches).2
  := by
  induction batches generalizing s s' with
  | nil => exact ⟨hs, rfl⟩
  | cons is rest ih =>
      obtain ⟨hround, heffects⟩ := h.round hs is
      rw [EventLoop.rounds, EventLoop.rounds]
      generalize L.round s is = result at hround heffects
      generalize L'.round s' is = result' at hround heffects
      obtain ⟨t, es, running⟩ := result
      obtain ⟨t', rest'⟩ := result'
      cases heffects
      cases running with
      | false => exact ⟨hround, rfl⟩
      | true =>
          obtain ⟨hrest, heffects⟩ := ih hround
          simp only [heffects, and_true]
          exact hrest

/-- Related states have the same runs. -/
theorem Simulates.run (h : Simulates L L' R) {s : S} {s' : S'} (hs : R s s')
    (batches : List (List I)) :
  R (L.run s batches).1 (L'.run s' batches).1 ∧ (L.run s batches).2 = (L'.run s' batches).2
  := by
  obtain ⟨hdraw, hfirst⟩ := h.draw hs
  obtain ⟨hrounds, hrest⟩ := h.rounds hdraw batches
  simp only [EventLoop.run, hfirst, hrest, and_true]
  exact hrounds

end EventLoop
