import Cpe.Main.SplitThreads

/-! # Interleaved calls of `split`

A call that goes on while the cursor is in its own copy takes the token it
would take alone. One that goes on after another call has started takes that
call's tokens, and leaves it without them. -/
namespace Cpe.Proofs.SplitRace
open Cpe.Lib.ByteOrder Cpe.Lib.CString Cpe.Lib.Run Cpe.Main

variable {κ : Type} {t u : Threads κ} {who other : κ}

/-- A call that goes on finds the cursor in its own copy. -/
def Own (t : Threads κ) (who : κ) : Prop :=
  ∀ resultVec, t.progress who = .scanning resultVec → t.owner = some who

theorem own_start (who : κ) : Own Threads.start who := by
  intro resultVec h
  cases h

/-- A call that has taken its last token does not go on. -/
theorem own_of_ended {resultVec : List Bytes} (h : t.progress who = .ended resultVec) :
    Own t who := by
  intro tokens hscanning
  rw [h] at hscanning
  cases hscanning

variable [DecidableEq κ] {calls : κ → SplitCall} {deleted : Threads κ → Bytes}

/-! ## One step -/

/-- What a `strtok` call does, with a token and without. -/
theorem callStrtok_cases (t : Threads κ) (who : κ) (owner : Option κ) (text pattern : Bytes)
    (resultVec : List Bytes) :
    (strtok text (cstr pattern) = none ∧
      t.callStrtok who owner text pattern resultVec =
        ⟨owner, [], Function.update t.progress who (.ended resultVec)⟩) ∨
    ∃ tmpStr rest, strtok text (cstr pattern) = some (tmpStr, rest) ∧
      t.callStrtok who owner text pattern resultVec =
        ⟨owner, rest, Function.update t.progress who (.scanning (resultVec ++ [tmpStr]))⟩ := by
  unfold Threads.callStrtok
  cases htok : strtok text (cstr pattern) with
  | none => exact .inl ⟨rfl, rfl⟩
  | some next => exact .inr ⟨next.1, next.2, rfl, rfl⟩

theorem callStrtok_self (t : Threads κ) (who : κ) (owner : Option κ) (text pattern : Bytes)
    (resultVec : List Bytes) :
    (t.callStrtok who owner text pattern resultVec).progress who =
      match strtok text (cstr pattern) with
      | some (tmpStr, _) => .scanning (resultVec ++ [tmpStr])
      | none => .ended resultVec := by
  obtain ⟨htok, hnext⟩ | ⟨tmpStr, rest, htok, hnext⟩ :=
    callStrtok_cases t who owner text pattern resultVec
  · rw [hnext, htok]
    exact Function.update_self ..
  · rw [hnext, htok]
    exact Function.update_self ..

theorem callStrtok_other (hne : other ≠ who) (owner : Option κ) (text pattern : Bytes)
    (resultVec : List Bytes) :
    (t.callStrtok who owner text pattern resultVec).progress other = t.progress other := by
  obtain ⟨-, hnext⟩ | ⟨_, _, -, hnext⟩ := callStrtok_cases t who owner text pattern resultVec
  · rw [hnext]
    exact Function.update_of_ne hne ..
  · rw [hnext]
    exact Function.update_of_ne hne ..

theorem callStrtok_owner (t : Threads κ) (who : κ) (owner : Option κ) (text pattern : Bytes)
    (resultVec : List Bytes) :
    (t.callStrtok who owner text pattern resultVec).owner = owner := by
  obtain ⟨-, hnext⟩ | ⟨_, _, -, hnext⟩ := callStrtok_cases t who owner text pattern resultVec
  · rw [hnext]
  · rw [hnext]

/-- The cursor after a `strtok` call depends on its text only. -/
theorem callStrtok_cursor (owner owner' : Option κ) (text pattern : Bytes)
    (resultVec : List Bytes) :
    (t.callStrtok who owner text pattern resultVec).cursor =
      (u.callStrtok who owner' text pattern resultVec).cursor := by
  unfold Threads.callStrtok
  cases strtok text (cstr pattern) with
  | none => rfl
  | some next => rfl

/-- A call that goes on in its own copy. -/
theorem step_scanning {resultVec : List Bytes} (h : t.progress who = .scanning resultVec)
    (howner : t.owner = some who) :
    t.step calls deleted who =
      t.callStrtok who (some who) t.cursor (calls who).pattern resultVec := by
  unfold Threads.step
  simp only [h, seen_own h howner, howner]

/-- What a step of one call leaves of another. -/
theorem step_progress_other (hne : other ≠ who) :
    (t.step calls deleted who).progress other = t.progress other := by
  unfold Threads.step
  cases t.progress who with
  | ready => exact callStrtok_other hne ..
  | scanning resultVec => exact callStrtok_other hne ..
  | ended resultVec => exact Function.update_of_ne hne ..
  | returned resultVec => rfl

/-! ## A call among others and alone -/

/-- In `t`, where other calls take steps too, and in `u`, where none does, a
call has come equally far, and the cursor is the same if it is the call's. -/
structure SameCall (who : κ) (t u : Threads κ) : Prop where
  progress : t.progress who = u.progress who
  cursor : t.owner = some who → t.cursor = u.cursor
  own : Own u who

/-- The same `strtok` call in both. -/
theorem sameCall_callStrtok (text pattern : Bytes) (resultVec : List Bytes) :
    SameCall who (t.callStrtok who (some who) text pattern resultVec)
      (u.callStrtok who (some who) text pattern resultVec) := by
  refine ⟨?_, fun _ => callStrtok_cursor .., fun _ _ => callStrtok_owner ..⟩
  rw [callStrtok_self, callStrtok_self]

theorem SameCall.step_self (h : SameCall who t u) (hown : Own t who) :
    SameCall who (t.step calls deleted who) (u.step calls deleted who) := by
  cases hp : u.progress who with
  | ready =>
    unfold Threads.step
    simp only [h.progress, hp]
    exact sameCall_callStrtok ..
  | scanning resultVec =>
    have htp := h.progress.trans hp
    have howner := hown resultVec htp
    rw [step_scanning htp howner, step_scanning hp (h.own resultVec hp), h.cursor howner]
    exact sameCall_callStrtok ..
  | ended resultVec =>
    unfold Threads.step
    simp only [h.progress, hp]
    refine ⟨?_, h.cursor, ?_⟩
    · simp only [Function.update_self]
    · intro tokens htokens
      simp only [Function.update_self] at htokens
      cases htokens
  | returned resultVec =>
    unfold Threads.step
    simp only [h.progress, hp]
    exact h

theorem SameCall.step_other (h : SameCall who t u) (hne : who ≠ other) (hown : Own t other) :
    SameCall who (t.step calls deleted other) u := by
  refine ⟨(step_progress_other hne).trans h.progress, ?_, h.own⟩
  unfold Threads.step
  intro howner
  cases hp : t.progress other with
  | ready =>
    simp only [hp, callStrtok_owner] at howner
    exact absurd (Option.some.inj howner).symm hne
  | scanning resultVec =>
    simp only [hp, callStrtok_owner, hown resultVec hp] at howner
    exact absurd (Option.some.inj howner).symm hne
  | ended resultVec =>
    simp only [hp] at howner ⊢
    exact h.cursor howner
  | returned resultVec =>
    simp only [hp] at howner ⊢
    exact h.cursor howner

theorem SameCall.run (h : SameCall who t u) {schedule : List κ}
    (hown : EachStep (Threads.step calls deleted) Own t schedule) :
    SameCall who (run (Threads.step calls deleted) t schedule)
      (run (Threads.step calls deleted) u (List.replicate (schedule.count who) who)) := by
  induction schedule generalizing t u with
  | nil => exact h
  | cons next schedule ih =>
    obtain ⟨hnext, hrest⟩ := eachStep_cons.mp hown
    by_cases hself : who = next
    · subst hself
      rw [run_cons, List.count_cons_self, List.replicate_succ, run_cons]
      exact ih (h.step_self hnext) hrest
    · rw [run_cons, List.count_cons_of_ne (Ne.symm hself)]
      exact ih (h.step_other hself hnext) hrest

/-! ## A call alone -/

theorem run_returned {resultVec : List Bytes} (n : Nat) (h : t.progress who = .returned resultVec) :
    (run (Threads.step calls deleted) t (List.replicate n who)).progress who =
      .returned resultVec := by
  induction n with
  | zero => exact h
  | succ n ih =>
    have hstep : t.step calls deleted who = t := by
      unfold Threads.step
      rw [h]
    rw [List.replicate_succ, run_cons, hstep]
    exact ih

/-- From a `strtok` call in its own copy on, a call takes the pieces of the
text and returns. -/
theorem run_callStrtok (n : Nat) (text : Bytes) (resultVec : List Bytes)
    (h : (pieces (cstr (calls who).pattern) text).length < n) :
    (run (Threads.step calls deleted)
        (t.callStrtok who (some who) text (calls who).pattern resultVec)
        (List.replicate n who)).progress who =
      .returned (resultVec ++ pieces (cstr (calls who).pattern) text) := by
  induction n generalizing t text resultVec with
  | zero => exact absurd h (Nat.not_lt_zero _)
  | succ n ih =>
    rw [List.replicate_succ, run_cons]
    obtain ⟨htok, hnext⟩ | ⟨tmpStr, rest, htok, hnext⟩ :=
      callStrtok_cases t who (some who) text (calls who).pattern resultVec
    · have hended : (t.callStrtok who (some who) text (calls who).pattern resultVec).progress who =
          .ended resultVec := by
        rw [hnext]
        exact Function.update_self ..
      rw [pieces_of_strtok_none htok, List.append_nil]
      refine run_returned n ?_
      unfold Threads.step
      simp only [hended, Function.update_self]
    · obtain ⟨hpieces, _⟩ := pieces_of_strtok_some htok
      rw [hpieces, List.length_cons] at h
      rw [hnext, step_scanning (Function.update_self ..) rfl, ih rest (resultVec ++ [tmpStr])
        (by omega), hpieces, List.append_assoc]
      rfl

/-- **A call alone returns its pieces**, after one `strtok` call for each, one
that finds none, and the `delete[]`. -/
theorem alone_returns (calls : κ → SplitCall) (deleted : Threads κ → Bytes) (who : κ) {n : Nat}
    (h : (split (calls who).str (calls who).pattern).length + 2 ≤ n) :
    alone calls deleted who n = .returned (split (calls who).str (calls who).pattern) := by
  rw [split_eq] at h ⊢
  obtain ⟨m, rfl⟩ : ∃ m, n = m + 1 := ⟨n - 1, by omega⟩
  exact run_callStrtok m (cstr (calls who).str) [] (by omega)

/-! ## All interleavings -/

/-- **Interleaved calls of `split`.** In every run in which each call that goes
on finds the cursor in its own copy, every call is, in every state, where it
would be alone after as many steps of its own, and once it has made the steps
for its pieces it has returned them. -/
theorem splits_undisturbed (calls : κ → SplitCall) (deleted : Threads κ → Bytes)
    (schedule : List κ)
    (hown : EachStep (Threads.step calls deleted) Own Threads.start schedule) :
    (∀ pre post, schedule = pre ++ post → ∀ who,
      (run (Threads.step calls deleted) Threads.start pre).progress who =
        alone calls deleted who (pre.count who)) ∧
    ∀ who, (split (calls who).str (calls who).pattern).length + 2 ≤ schedule.count who →
      (run (Threads.step calls deleted) Threads.start schedule).progress who =
        .returned (split (calls who).str (calls who).pattern) := by
  have halone : ∀ pre post, schedule = pre ++ post → ∀ who,
      (run (Threads.step calls deleted) Threads.start pre).progress who =
        alone calls deleted who (pre.count who) := by
    intro pre post hpre who
    have hinitial : EachStep (Threads.step calls deleted) Own Threads.start pre := by
      intro before next after hbefore
      exact hown before next (after ++ post) (by rw [hpre, hbefore, List.append_assoc]; rfl)
    have hstart : SameCall who (Threads.start : Threads κ) Threads.start :=
      ⟨rfl, fun _ => rfl, own_start who⟩
    exact (hstart.run hinitial).progress
  refine ⟨halone, ?_⟩
  intro who hsteps
  rw [halone schedule [] (List.append_nil _).symm who]
  exact alone_returns calls deleted who hsteps

/-! ## Calls that overlap at their ends -/

/-- A step of a call leaves the cursor in its copy. -/
theorem own_step (h : Own t who) : Own (t.step calls deleted who) who := by
  intro resultVec hscanning
  unfold Threads.step at hscanning ⊢
  cases hp : t.progress who with
  | ready => exact callStrtok_owner ..
  | scanning tokens =>
    simp only [callStrtok_owner]
    exact h tokens hp
  | ended tokens =>
    simp only [hp, Function.update_self] at hscanning
    cases hscanning
  | returned tokens =>
    simp only [hp] at hscanning
    cases hscanning

theorem own_block (n : Nat) (h : Own t who) :
    EachStep (Threads.step calls deleted) Own t (List.replicate n who) := by
  induction n generalizing t with
  | zero => exact eachStep_nil
  | succ n ih =>
    rw [List.replicate_succ, eachStep_cons]
    exact ⟨h, ih (own_step h)⟩

/-! ## A dispatch and an update -/

inductive Caller
  | dispatch
  | update
deriving DecidableEq, Repr

/-- A dispatch splits a list of networks, an update one network. -/
def nets : Caller → SplitCall
  | .dispatch => ⟨str "10.1.0.0/16,10.2.0.0/16", str ","⟩
  | .update => ⟨str "10.3.0.0/24", str "/"⟩

/-- A deleted copy holds no text. -/
def cleared : Threads Caller → Bytes := fun _ => []

/-- The update comes in behind the dispatch's first token. -/
def crossed : List Caller :=
  [.dispatch, .update, .dispatch, .update, .dispatch, .dispatch, .update]

/-- The dispatch returns the update's length for its second network, and the
update no length. -/
theorem tokens_cross :
    (run (Threads.step nets cleared) Threads.start crossed).progress .dispatch =
        .returned [str "10.1.0.0/16", str "24"] ∧
      (run (Threads.step nets cleared) Threads.start crossed).progress .update =
        .returned [str "10.3.0.0"] ∧
      alone nets cleared .dispatch (crossed.count .dispatch) =
        .returned [str "10.1.0.0/16", str "10.2.0.0/16"] ∧
      alone nets cleared .update 4 = .returned [str "10.3.0.0", str "24"] := by
  decide +kernel

/-- The update begins before the dispatch, which has its last token, deletes its
copy. -/
def overlapped : List Caller :=
  List.replicate 3 .dispatch ++ .update :: .dispatch :: List.replicate 3 .update

theorem overlapped_own :
    EachStep (Threads.step nets cleared) Own Threads.start overlapped := by
  have hended : (run (Threads.step nets cleared) Threads.start
      (List.replicate 3 .dispatch ++ [.update])).progress .dispatch =
        .ended [str "10.1.0.0/16", str "10.2.0.0/16"] := by decide +kernel
  have howner : (run (Threads.step nets cleared) Threads.start
      (List.replicate 3 .dispatch ++ [.update, .dispatch])).owner = some .update := by
    decide +kernel
  have hready : (run (Threads.step nets cleared) Threads.start
      (List.replicate 3 .dispatch)).progress .update = .ready := by decide +kernel
  refine eachStep_append.mpr ⟨own_block 3 (own_start _), eachStep_cons.mpr ⟨?_,
    eachStep_cons.mpr ⟨own_of_ended hended, own_block 3 fun _ _ => howner⟩⟩⟩
  intro resultVec hscanning
  rw [hready] at hscanning
  cases hscanning

/-- Both return their own parts. -/
theorem tokens_kept :
    (run (Threads.step nets cleared) Threads.start overlapped).progress .dispatch =
        .returned (split (nets .dispatch).str (nets .dispatch).pattern) ∧
      (run (Threads.step nets cleared) Threads.start overlapped).progress .update =
        .returned (split (nets .update).str (nets .update).pattern) := by
  obtain ⟨_, hreturned⟩ := splits_undisturbed nets cleared overlapped overlapped_own
  exact ⟨hreturned .dispatch (by decide +kernel), hreturned .update (by decide +kernel)⟩

end Cpe.Proofs.SplitRace
