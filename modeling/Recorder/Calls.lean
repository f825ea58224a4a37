import Recorder.BaseRecorder

/-!
# Calls of the `Recorder` interface

The methods of `Recorder` (recorder.go) as one syntax of calls (`Call`), the value each returns
on success (`Reply`), and a run of calls against a recorder given by its step function
(`runCalls`). `BaseRecorder.call` is the step function of the base recorder over a storage.

`runCalls_simulation` is the one induction every comparison of two recorders needs: a relation
between their states that each call of a class keeps, with the same reply on both sides, holds
after any run of such calls, and the two runs return the same replies.
-/

namespace Recorder

/-- A call of the `Recorder` interface, with its arguments; a Go `error` argument is `none` for
`nil` and otherwise its `Error()` text. -/
inductive Call where
  | recordRequest (primaryID : Option String) (requestID : String) (request : Bytes) (tags : Tags)
  | recordResponse (primaryID : Option String) (requestID : String) (response : Bytes) (tags : Tags)
  | recordError (id : Option String) (requestID : String) (err : Option String) (tags : Tags)
  | recordMetrics (primaryID : Option String) (requestID : String) (metrics : Tags) (tags : Tags)
  | getRequest (requestID : String)
  | getResponse (requestID : String)
  | findByTag (tag : String)
deriving DecidableEq, Repr

/-- What a call returns besides its error: nothing, a payload, or the keys of `FindByTag`. -/
inductive Reply where
  | done
  | payload (data : Bytes)
  | keys (keys : List String)
deriving DecidableEq, Repr

/-- The reply of a `Record*` method. -/
def Reply.ofUnit {S : Type} (res : Except String Unit × S) : Except String Reply × S :=
  (res.1.map fun _ => .done, res.2)

/-- A run of calls: every reply, and the state after the last call. -/
def runCalls {S C : Type} (step : S → C → Except String Reply × S) :
    S → List C → List (Except String Reply) × S
  | s, [] => ([], s)
  | s, c :: cs => ((step s c).1 :: (runCalls step (step s c).2 cs).1, (runCalls step (step s c).2 cs).2)

namespace BaseRecorder

variable {S : Type} (r : BaseRecorder S)

/-- The base recorder's answer to a call. -/
def call (s : S) : Call → Except String Reply × S
  | .recordRequest p id d t => Reply.ofUnit (r.recordRequest s p id d t)
  | .recordResponse p id d t => Reply.ofUnit (r.recordResponse s p id d t)
  | .recordError p id e t => Reply.ofUnit (r.recordError s p id e t)
  | .recordMetrics p id m t => Reply.ofUnit (r.recordMetrics s p id m t)
  | .getRequest id => ((r.getRequest s id).map .payload, s)
  | .getResponse id => ((r.getResponse s id).map .payload, s)
  | .findByTag tag => ((r.findByTag s tag).map .keys, s)

/-! ### A recorder built without options -/

@[simp] theorem new_storage (storage : Storage S) (opts : List (Option RecorderOption)) :
    (new storage opts).storage = storage := rfl

/-- With no hooks, what passes validation reaches the storage as it is. -/
@[simp] theorem scrubAndSave_new (storage : Storage S) (s : S) (t what : String)
    (p : Option String) (id : String) (d : Bytes) (tags : Tags) :
    (new storage []).scrubAndSave s t what p id d tags = storage.save s ⟨t, p, id, d, tags⟩ := by
  simp [new, scrubAndSave, scrubPayload, prepareTags, cloneTags]

/-! ### What a call can change -/

/-- The tail of the `Record*` methods changes the state by one save of the storage, if at all. -/
theorem scrubAndSave_state (s : S) (t what : String) (p : Option String) (id : String) (d : Bytes)
    (tags : Tags) : (r.scrubAndSave s t what p id d tags).2 = s ∨
      ∃ rec, (r.scrubAndSave s t what p id d tags).2 = (r.storage.save s rec).2 := by
  unfold scrubAndSave
  split
  · exact .inl rfl
  · split
    · exact .inl rfl
    · exact .inr ⟨_, rfl⟩

/-- Every call changes the state by one save of the storage, if at all. -/
theorem call_state (s : S) (c : Call) :
    (r.call s c).2 = s ∨ ∃ rec, (r.call s c).2 = (r.storage.save s rec).2 := by
  cases c with
  | recordRequest | recordResponse | recordMetrics =>
    simp only [call, Reply.ofUnit, recordRequest, recordResponse, recordPayload, recordMetrics]
    split
    · exact .inl rfl
    split
    · exact .inl rfl
    exact r.scrubAndSave_state ..
  | recordError p id e t =>
    rcases e with _ | text
    · exact .inl rfl
    simp only [call, Reply.ofUnit, recordError]
    split
    · exact .inl rfl
    exact r.scrubAndSave_state ..
  | getRequest | getResponse | findByTag => exact .inl rfl

/-- What every save of the storage keeps holds after every run of calls. -/
theorem runCalls_invariant {Inv : S → Prop} (hsave : ∀ s rec, Inv s → Inv (r.storage.save s rec).2) :
    ∀ (calls : List Call) (s : S), Inv s → Inv (runCalls r.call s calls).2
  | [], _, h => h
  | c :: cs, s, h => by
    refine runCalls_invariant hsave cs _ ?_
    rcases r.call_state s c with hs | ⟨rec, hs⟩ <;> rw [hs]
    exacts [h, hsave s rec h]

end BaseRecorder

/-! ### Comparing two recorders -/

section Simulation

variable {S T : Type} (R : S → T → Prop)

/-- Two results of one call alike: the same reply, and states related by `R`. -/
def Alike {α : Type} (a : α × S) (b : α × T) : Prop :=
  a.1 = b.1 ∧ R a.2 b.2

theorem Alike.ofUnit {R : S → T → Prop} {a : Except String Unit × S} {b : Except String Unit × T}
    (h : Alike R a b) : Alike R (Reply.ofUnit a) (Reply.ofUnit b) :=
  ⟨congrArg (Except.map fun _ => Reply.done) h.1, h.2⟩

variable {step₁ : S → Call → Except String Reply × S} {step₂ : T → Call → Except String Reply × T}
  (P : Call → Prop)

/-- Two recorders whose states stay related under every call of the class `P`, with equal
replies, return the same replies over every run of such calls. -/
theorem runCalls_simulation (hstep : ∀ s t c, R s t → P c → Alike R (step₁ s c) (step₂ t c)) :
    ∀ (calls : List Call) (s : S) (t : T), R s t → (∀ c ∈ calls, P c) →
      Alike R (runCalls step₁ s calls) (runCalls step₂ t calls)
  | [], _, _, h, _ => ⟨rfl, h⟩
  | c :: cs, s, t, h, hp => by
    obtain ⟨hr, hs⟩ := hstep s t c h (hp c (List.mem_cons_self _ _))
    obtain ⟨ih₁, ih₂⟩ := runCalls_simulation hstep cs _ _ hs fun c hc => hp c (List.mem_cons_of_mem _ hc)
    exact ⟨by simp only [runCalls, hr, ih₁], ih₂⟩

/-- Two storages whose answers agree on states related by `R`, every save keeping `R`. -/
structure Storage.Simulation (a : Storage S) (b : Storage T) : Prop where
  save : ∀ s t rec, R s t → Alike R (a.save s rec) (b.save t rec)
  load : ∀ s t ty id, R s t → a.load s ty id = b.load t ty id
  findByTag : ∀ s t tag, R s t → a.findByTag s tag = b.findByTag t tag

namespace BaseRecorder

variable {R} {a : Storage S} {b : Storage T} (h : Storage.Simulation R a b)
  (opts : List (Option RecorderOption))
include h

theorem scrubAndSave_simulation {s : S} {t : T} (hr : R s t) (ty what : String)
    (p : Option String) (id : String) (d : Bytes) (tags : Tags) :
    Alike R ((new a opts).scrubAndSave s ty what p id d tags)
      ((new b opts).scrubAndSave t ty what p id d tags) := by
  have hp : (new b opts).scrubPayload ty d = (new a opts).scrubPayload ty d := rfl
  have ht : (new b opts).prepareTags ty tags = (new a opts).prepareTags ty tags := rfl
  unfold scrubAndSave
  rw [hp, ht]
  cases (new a opts).scrubPayload ty d with
  | error e => exact ⟨rfl, hr⟩
  | ok d' =>
    cases (new a opts).prepareTags ty tags with
    | error e => exact ⟨rfl, hr⟩
    | ok tags' => exact h.save s t _ hr

/-- Base recorders with the same options over simulating storages answer every call alike. -/
theorem call_simulation {s : S} {t : T} (hr : R s t) :
    ∀ c, Alike R ((new a opts).call s c) ((new b opts).call t c)
  | .recordRequest .. | .recordResponse .. | .recordMetrics .. => by
    simp only [call, recordRequest, recordResponse, recordPayload, recordMetrics]
    refine Alike.ofUnit ?_
    split_ifs
    exacts [⟨rfl, hr⟩, ⟨rfl, hr⟩, scrubAndSave_simulation h opts hr ..]
  | .recordError _ _ none _ => ⟨rfl, hr⟩
  | .recordError _ _ (some _) _ => by
    simp only [call, recordError]
    refine Alike.ofUnit ?_
    split_ifs
    exacts [⟨rfl, hr⟩, scrubAndSave_simulation h opts hr ..]
  | .getRequest id | .getResponse id => by
    simp only [call, getRequest, getResponse, getPayload, new_storage, h.load s t _ _ hr]
    exact ⟨rfl, hr⟩
  | .findByTag tag => by
    simp only [call, findByTag, new_storage, h.findByTag s t _ hr]
    exact ⟨rfl, hr⟩

/-- So they answer every run of calls alike. -/
theorem runCalls_new_simulation {s : S} {t : T} (hr : R s t) (calls : List Call) :
    Alike R (runCalls (new a opts).call s calls) (runCalls (new b opts).call t calls) :=
  runCalls_simulation R (fun _ => True) (fun _ _ c hr _ => call_simulation h opts hr c) calls s t hr
    fun _ _ => trivial

end BaseRecorder

end Simulation

/-- How the legacy recorders join a primary id to the request id,
`fmt.Sprintf("%s<sep>%s", *primaryID, id)`: for every non-`nil` primary id, an empty one too. -/
def joinID (sep : String) (primaryID : Option String) (id : String) : String :=
  match primaryID with
  | some p => p ++ sep ++ id
  | none => id

/-- Unless the primary id is `""`, the legacy join is the record's storage id. -/
theorem storageID_eq_joinID (sep : String) {p : Option String} (hp : p ≠ some "") (t : RecordType)
    (id : String) (d : Bytes) (tags : Tags) :
    Record.storageID sep ⟨t, p, id, d, tags⟩ = joinID sep p id := by
  cases p with
  | none => rfl
  | some q => exact if_neg fun (h : q = "") => hp (h ▸ rfl)

end Recorder
