import Mathlib.Logic.Function.Basic

/-! # Handles of the event loop

The class template `handle` with classes over it: the objects of a program that
uses them, the memory they allocate, and the loop that is given their handles.
What libuv leaves undefined counts as a crash: a function on a handle that was not
initialised, and any function once the loop has a handle that is out of memory,
since its queue goes through the handles themselves. -/
namespace Cpe.Uvpp.Handle

/-! ## Classes -/

inductive HandleClass
  | Tcp
  | Udp
  | Pipe
  | TTY
  | Timer
  | Signal
  | Poll
  | FsEvent
  | FsPoll
deriving DecidableEq, Repr

inductive CallbackId
  | uv_cid_close
  | uv_cid_read_start
  | uv_cid_udp_read_start
  | uv_cid_timer
  | uv_cid_poll
  | uv_cid_signal
  | uv_cid_fs_poll
  | uv_cid_fs_event
deriving DecidableEq, Repr

/-- The place of the callback that an object of the class is started with. -/
def HandleClass.startId : HandleClass → CallbackId
  | .Tcp | .Pipe | .TTY => .uv_cid_read_start
  | .Udp => .uv_cid_udp_read_start
  | .Timer => .uv_cid_timer
  | .Signal => .uv_cid_signal
  | .Poll => .uv_cid_poll
  | .FsEvent => .uv_cid_fs_event
  | .FsPoll => .uv_cid_fs_poll

/-- The classes whose `uv_*_init` can fail, which leaves a handle that has no type
and that the loop does not know. The constructors do not look at the result. -/
def HandleClass.initFails : HandleClass → Bool
  | .TTY | .Signal | .Poll => true
  | .Tcp | .Udp | .Pipe | .Timer | .FsEvent | .FsPoll => false

/-- The classes whose handles `free_handle` knows the type of. -/
def HandleClass.freed : HandleClass → Bool
  | .Tcp | .Udp | .Pipe | .TTY | .Timer | .Signal | .Poll | .FsEvent => true
  | .FsPoll => false

/-- The classes that can be moved: those without a destructor of their own, or
of `stream`. -/
def HandleClass.movable : HandleClass → Bool
  | .Timer | .Signal | .Poll | .FsPoll => true
  | .Tcp | .Udp | .Pipe | .TTY | .FsEvent => false

/-- The classes with a `reset`. -/
def HandleClass.resets : HandleClass → Bool
  | .Tcp | .Udp => true
  | _ => false

@[simp] theorem HandleClass.startId_ne_close (c : HandleClass) : c.startId ≠ .uv_cid_close := by
  cases c <;> simp [startId]

/-! ## Objects and memory -/

/-- A `uv_handle_t` with its callbacks. It has the type of a class, or of none
before it is initialised. -/
structure Block (β : Type) where
  type : Option HandleClass
  data : CallbackId → Option β

def Block.store {β : Type} (b : Block β) (cid : CallbackId) (callback : β) : Block β :=
  { b with data := Function.update b.data cid (some callback) }

/-- `started_` is a member of `FsEvent`, the others do not read it. -/
structure Object where
  cls : HandleClass
  uvHandle : Option Nat
  willClose : Bool
  started : Bool
deriving DecidableEq, Repr

/-- What is left of an object that was moved from. -/
def Object.moved (x : Object) : Object := { x with uvHandle := none, willClose := false }

/-- The objects by their names, the allocated handles, and what the loop knows:
the handles it has, those it watches, and those it is asked to close. -/
structure World (κ β : Type) where
  objects : κ → Option Object
  heap : Nat → Option (Block β)
  next : Nat
  registered : Nat → Bool
  active : Nat → Bool
  closing : Nat → Bool
  ran : List (Nat × β)
  crashed : Bool

inductive Op (κ β : Type)
  | construct (o : κ) (c : HandleClass) (succeeds : Bool)
  | moveConstruct (o o' : κ)
  | moveAssign (o o' : κ)
  | reset (o : κ) (succeeds : Bool)
  | start (o : κ) (callback : β) (succeeds : Bool)
  | stop (o : κ)
  | close (o : κ) (callback : β)
  | destroy (o : κ)
  -- the loop
  | fires (a : Nat)
  | closes (a : Nat)

section
variable {κ β : Type}

/-- Before the first object. -/
def World.empty : World κ β :=
  { objects := fun _ => none, heap := fun _ => none, next := 0, registered := fun _ => false,
    active := fun _ => false, closing := fun _ => false, ran := [], crashed := false }

/-- A null or dangling pointer, an assertion that fails, or undefined behaviour. -/
def World.crash (w : World κ β) : World κ β := { w with crashed := true }

def World.setObject [DecidableEq κ] (w : World κ β) (o : κ) (x : Option Object) : World κ β :=
  { w with objects := Function.update w.objects o x }

def World.setBlock (w : World κ β) (a : Nat) (b : Option (Block β)) : World κ β :=
  { w with heap := Function.update w.heap a b }

/-- Does the loop have a handle that is out of memory? -/
def World.dangling (w : World κ β) : Bool :=
  (List.range w.next).any fun a => w.registered a && (w.heap a).isNone

/-- A new handle, and the function that initialises it and gives it to the loop. -/
def World.allocate (w : World κ β) (c : HandleClass) (succeeds : Bool) : World κ β :=
  let initialised := succeeds || !c.initFails
  { w.setBlock w.next (some ⟨if initialised then some c else none, fun _ => none⟩) with
    next := w.next + 1
    registered := Function.update w.registered w.next initialised }

/-- `get()`, with what is done to the handle. -/
def World.get (w : World κ β) (uvHandle : Option Nat) (f : Nat → Block β → World κ β) :
    World κ β :=
  match uvHandle with
  | none => w.crash
  | some a =>
    match w.heap a with
    | none => w.crash
    | some b => f a b

/-- A function of libuv on the handle. -/
def World.libuv (w : World κ β) (uvHandle : Option Nat) (f : Nat → Block β → World κ β) :
    World κ β :=
  w.get uvHandle fun a b => if b.type = none ∨ w.dangling then w.crash else f a b

def World.freeHandle (w : World κ β) (uvHandle : Option Nat) : World κ β :=
  match uvHandle with
  | none => w
  | some a => w.get (some a) fun a b =>
    if b.type.any HandleClass.freed then w.setBlock a none else w.crash

def World.stopHandle (w : World κ β) (uvHandle : Option Nat) : World κ β :=
  w.libuv uvHandle fun a _ => { w with active := Function.update w.active a false }

/-- Does the destructor of the class stop the handle? -/
def Object.dtorStops (x : Object) : Bool :=
  match x.cls with
  | .Udp => true
  | .FsEvent => x.started
  | _ => false

/-- The destructor of the class, before that of `handle`. -/
def World.classDtor (w : World κ β) (x : Object) : World κ β :=
  if x.dtorStops then w.stopHandle x.uvHandle else w

def World.handleDtor (w : World κ β) (x : Object) : World κ β :=
  if x.willClose then w else w.freeHandle x.uvHandle

/-- What a member function does to an object; there is no call without one. -/
def World.onObject (w : World κ β) (o : κ) (f : Object → World κ β) : World κ β :=
  match w.objects o with
  | none => w
  | some x => f x

/-- A call that is not of a program changes nothing. -/
def World.exec [DecidableEq κ] (w : World κ β) : Op κ β → World κ β
  | .construct o c succeeds =>
    match w.objects o with
    | some _ => w
    | none =>
      if w.dangling then w.crash
      else (w.allocate c succeeds).setObject o (some ⟨c, some w.next, false, false⟩)
  | .moveConstruct o o' =>
    match w.objects o, w.objects o' with
    | none, some x =>
      if x.cls.movable then (w.setObject o (some x)).setObject o' (some x.moved) else w
    | _, _ => w
  | .moveAssign o o' =>
    if o = o' then w else
    match w.objects o, w.objects o' with
    | some x, some x' =>
      if x.cls.movable ∧ x.cls = x'.cls then
        (w.setObject o
          (some { x with uvHandle := x'.uvHandle, willClose := x'.willClose })).setObject o'
          (some x'.moved)
      else w
    | _, _ => w
  | .reset o succeeds =>
    w.onObject o fun x =>
      if !x.cls.resets then w
      else if w.dangling then w.crash
      else (w.allocate x.cls succeeds).setObject o
        (some { x with uvHandle := some w.next, willClose := false })
  | .start o callback succeeds =>
    w.onObject o fun x => w.libuv x.uvHandle fun a b =>
      { (w.setBlock a (some (b.store x.cls.startId callback))).setObject o
          (some { x with started := true }) with
        active := Function.update w.active a (succeeds || w.active a) }
  | .stop o => w.onObject o fun x => w.stopHandle x.uvHandle
  | .close o callback =>
    w.onObject o fun x => w.libuv x.uvHandle fun a b =>
      if w.closing a then w
      else
        { (w.setBlock a (some (b.store .uv_cid_close callback))).setObject o
            (some { x with uvHandle := none, willClose := true }) with
          active := Function.update w.active a false
          closing := Function.update w.closing a true }
  | .destroy o =>
    w.onObject o fun x =>
      if (w.classDtor x).crashed then w.crash else ((w.classDtor x).handleDtor x).setObject o none
  | .fires a =>
    if w.active a then
      w.libuv (some a) fun a b =>
        match b.type.bind fun c => b.data c.startId with
        | none => w.crash
        | some callback => { w with ran := w.ran ++ [(a, callback)] }
    else w
  | .closes a =>
    if w.closing a then
      w.libuv (some a) fun a b =>
        match b.data .uv_cid_close with
        | none => w.crash
        | some callback =>
          { w with
            ran := w.ran ++ [(a, callback)]
            registered := Function.update w.registered a false
            closing := Function.update w.closing a false }.freeHandle (some a)
    else w

/-- Nothing comes after a crash. -/
def World.step [DecidableEq κ] (w : World κ β) (op : Op κ β) : World κ β :=
  if w.crashed then w else w.exec op

end

section
variable {κ β : Type} {w : World κ β} {o : κ} {x : Object} {a : Nat} {b : Block β}

end

end Cpe.Uvpp.Handle
