import PushKeeper.Shell.Tools.Form

namespace PushKeeper.Shell.Tools.Editing

inductive Address
  | line (n : Nat)
  | last
  | form (f : Option Form)
  | every (first step : Nat)

inductive Limit
  | address (a : Address)
  | after (count : Nat)
  | multiple (n : Nat)

structure Target where
  first : Option Address
  limit : Option Limit
  opposite : Bool

inductive Part
  | text (cs : Bytes)
  | group (n : Nat)
  | shift (c : Char)

structure Exchange where
  form : Option Form
  parts : List Part
  number : Nat
  all : Bool
  prints : Bool
  file : Option Bytes

inductive Action
  | opens
  | closes
  | label (name : Bytes)
  | exchange (e : Exchange)
  | translate (pairs : List (Char × Char))
  | print
  | printFirst
  | delete
  | deleteFirst
  | next
  | join
  | quit (status : Nat) (silently : Bool)
  | append (text : Bytes)
  | insert (text : Bytes)
  | change (text : Bytes)
  | number
  | hold (adds : Bool)
  | recall (adds : Bool)
  | swap
  | clear
  | show
  | branch (label : Bytes)
  | branchIf (exchanged : Bool) (label : Bytes)
  | include (file : Bytes)
  | store (file : Bytes)
  | none

structure Order where
  id : Nat
  target : Target
  action : Action

end PushKeeper.Shell.Tools.Editing
