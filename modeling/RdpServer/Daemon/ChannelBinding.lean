import RdpServer.Wire.Mcs

/-!
# Static channels and their services

The loop of `rdp_conn_run` that finds the channels of the services in the client's list. It
compares as many letters as the name of the service has, so a channel whose name only begins with
it takes the binding as well, and the last one keeps it (`bound_by_name_iff`).
-/

namespace RdpServer

open Bytes List

/-- `tolower` of the C locale. -/
def tolower (c : UInt8) : UInt8 := if 0x41 ≤ c ∧ c ≤ 0x5a then c + 0x20 else c

/-- Whether `strncasecmp` gives zero; the strings end at their first zero. -/
def strncasecmpEq : Bytes → Bytes → Nat → Bool
  | _, _, 0 => true
  | a, b, n + 1 =>
    if tolower (a.headD 0) ≠ tolower (b.headD 0) then false
    else if a.headD 0 = 0 then true
    else strncasecmpEq a.tail b.tail n

inductive Service where
  | clip
  | dynvc
  | snd
  | devr
  | rail
  deriving DecidableEq

def Service.name : Service → Bytes
  | .clip => ascii "CLIPRDR"
  | .dynvc => ascii "DRDYNVC"
  | .snd => ascii "RDPSND"
  | .devr => ascii "RDPDR"
  | .rail => ascii "rail"

def channelId (i : Nat) : Nat := (1004 + i) % 2 ^ 16

def McsChannelDef.begins (channel : McsChannelDef) (service : Service) : Bool :=
  strncasecmpEq (channel.name ++ [0]) service.name service.name.length

/-- The binding of a service after the channels from place `i` on. -/
def bindChannels (service : Service) : (i : Nat) → List McsChannelDef → Option Nat → Option Nat
  | _, [], bound => bound
  | i, channel :: channels, bound =>
    bindChannels service (i + 1) channels
      (if channel.begins service then some (channelId i) else bound)

def boundChannel (ci : McsConnectInitial) (service : Service) : Option Nat :=
  bindChannels service 0 ci.channels.defs none

/-- The name of the channel is the name of the service, in either case and padded with zeros. -/
def McsChannelDef.named (channel : McsChannelDef) (service : Service) : Bool :=
  channel.name.map tolower ==
    service.name.map tolower ++ List.replicate (8 - service.name.length) 0

theorem strncasecmpEq_of_take {a b : Bytes} {n : Nat} (enough : n ≤ b.length)
    (same : (a.map tolower).take n = (b.map tolower).take n) : strncasecmpEq a b n = true := by
  induction n generalizing a b with
  | zero => rfl
  | succ n ih =>
    cases b with
    | nil => simp at enough
    | cons y b =>
      cases a with
      | nil => simp at same
      | cons x a =>
        simp only [map_cons, take_succ_cons, cons.injEq] at same
        have rest := ih (by simpa using enough) same.2
        simp only [strncasecmpEq, headD_cons, tail_cons, same.1, ne_eq,
          not_true_eq_false, ↓reduceIte, rest, ite_self]

variable {service : Service}

theorem McsChannelDef.begins_of_named {channel : McsChannelDef}
    (named : channel.named service = true) : channel.begins service = true := by
  refine strncasecmpEq_of_take le_rfl ?_
  rw [McsChannelDef.named, beq_iff_eq] at named
  rw [map_append, named, append_assoc]
  simp only [length_map, take_left', take_of_length_le, le_refl]

variable {channels : List McsChannelDef}

theorem bindChannels_eq_self :
    ∀ {i : Nat} {bound : Option Nat}, (¬ ∃ channel ∈ channels, channel.begins service = true) →
      bindChannels service i channels bound = bound := by
  induction channels with
  | nil => exact fun _ => rfl
  | cons first rest ih =>
    intro i bound others
    have other : ¬ first.begins service = true := fun begins =>
      others ⟨first, mem_cons_self, begins⟩
    rw [bindChannels, if_neg other]
    refine ih fun found => others ?_
    obtain ⟨channel, member, begins⟩ := found
    exact ⟨channel, mem_cons_of_mem _ member, begins⟩

theorem bindChannels_eq_some :
    ∀ {i : Nat} {bound : Option Nat}, (∃ channel ∈ channels, channel.begins service = true) →
      ∃ k channel, channels[k]? = some channel ∧ channel.begins service = true ∧
        (∀ j later, channels[j]? = some later → later.begins service = true → j ≤ k) ∧
        bindChannels service i channels bound = some (channelId (i + k)) := by
  induction channels with
  | nil => simp
  | cons first rest ih =>
    intro i bound found
    by_cases behind : ∃ channel ∈ rest, channel.begins service = true
    · obtain ⟨k, channel, placed, begins, last, binding⟩ :=
        @ih (i + 1) (if first.begins service then some (channelId i) else bound) behind
      refine ⟨k + 1, channel, placed, begins, ?_, ?_⟩
      · intro j later held starts
        cases j with
        | zero => omega
        | succ j => exact Nat.succ_le_succ (last j later held starts)
      · rw [bindChannels, binding, Nat.add_right_comm, Nat.add_assoc]
    · have begins : first.begins service = true := by
        obtain ⟨channel, member, begins⟩ := found
        rcases mem_cons.1 member with rfl | member
        · exact begins
        · exact absurd ⟨channel, member, begins⟩ behind
      refine ⟨0, first, rfl, begins, ?_, ?_⟩
      · intro j later held starts
        cases j with
        | zero => exact le_rfl
        | succ j => exact absurd ⟨later, mem_of_getElem? held, starts⟩ behind
      · rw [bindChannels, if_pos begins, Nat.add_zero]
        exact bindChannels_eq_self behind

theorem channelId_injective {i j : Nat} (first : i < 32) (second : j < 32)
    (same : channelId i = channelId j) : i = j := by
  unfold channelId at same
  omega

/-- If a channel of the list has the name of the service, then the service is bound to one that
has. -/
def BoundByName (ci : McsConnectInitial) (service : Service) : Prop :=
  (∃ channel ∈ ci.channels.defs, channel.named service = true) →
    ∃ (i : Nat) (channel : McsChannelDef), ci.channels.defs[i]? = some channel ∧
      channel.named service = true ∧ boundChannel ci service = some (channelId i)

/-- If a channel of the list has the name of the service, then no channel that only begins with
the name stands behind all of those. -/
def Undisturbed (ci : McsConnectInitial) (service : Service) : Prop :=
  (∃ channel ∈ ci.channels.defs, channel.named service = true) →
    ∀ (i : Nat) (channel : McsChannelDef), ci.channels.defs[i]? = some channel →
      channel.begins service = true →
        ∃ (j : Nat) (later : McsChannelDef), i ≤ j ∧ ci.channels.defs[j]? = some later ∧
          later.named service = true

/-- **Binding of the static channels.** For every channel list, a service is bound to a channel
with its name exactly if no channel that only begins with the name is behind all of those. -/
theorem bound_by_name_iff (ci : McsConnectInitial) (service : Service) :
    BoundByName ci service ↔ Undisturbed ci service := by
  refine forall_congr' fun listed => ?_
  obtain ⟨full, member, named⟩ := listed
  obtain ⟨k, channel, placed, begins, last, binding⟩ :=
    @bindChannels_eq_some service ci.channels.defs 0 none ⟨full, member, full.begins_of_named named⟩
  rw [Nat.zero_add] at binding
  have short : ∀ {i held}, ci.channels.defs[i]? = some held → i < 32 := by
    intro i held place
    have inside := (List.getElem?_eq_some_iff.1 place).1
    have bounded : ci.channels.defs.length ≤ 32 := ci.channels.bounded
    omega
  constructor
  · rintro ⟨i, holder, place, holds, bound⟩ j other held starts
    have same : i = k := by
      refine channelId_injective (short place) (short placed) ?_
      exact Option.some.inj (bound.symm.trans binding)
    subst same
    exact ⟨i, holder, last j other held starts, place, holds⟩
  · intro undisturbed
    obtain ⟨j, later, behind, held, holds⟩ := undisturbed k channel placed begins
    have place := last j later held (later.begins_of_named holds)
    obtain rfl : j = k := by omega
    exact ⟨j, later, held, holds, binding⟩

/-- A Connect Initial with the channels `rail` and `rail_wi`. -/
def railConnect : Bytes :=
  [0x7f, 0x65, 61, 0x04, 1, 1, 0x04, 1, 1, 0x01, 1, 0xff, 0x30, 0, 0x30, 0, 0x30, 0, 0x04, 44] ++
    List.replicate 7 0 ++ ascii "Duca" ++ [32, 0x03, 0xc0, 32, 0, 2, 0, 0, 0] ++
    ascii "rail" ++ List.replicate 8 0 ++ ascii "rail_wi" ++ List.replicate 5 0

def railChannels : McsChannels where
  defs := [⟨ascii "rail" ++ [0, 0, 0, 0], by decide, 0⟩, ⟨ascii "rail_wi" ++ [0], by decide, 0⟩]

/-- The second channel takes the binding of RemoteApp from the first. -/
theorem rail_bound_to_rail_wi :
    rdpMcsParseConnectInitial railConnect = .ok { channels := railChannels } ∧
      (railChannels.defs.map fun channel => channel.named .rail) = [true, false] ∧
      boundChannel { channels := railChannels } .rail = some 1005 ∧
      ¬ BoundByName { channels := railChannels } .rail := by
  refine ⟨by decide +kernel, by decide, by decide, fun bound => ?_⟩
  have binding : boundChannel { channels := railChannels } .rail = some 1005 := by decide
  obtain ⟨i, channel, placed, named, taken⟩ := bound ⟨_, mem_cons_self, by decide⟩
  rw [binding] at taken
  match i with
  | 0 => exact absurd taken (by decide)
  | 1 =>
    obtain rfl := Option.some.inj placed
    exact absurd named (by decide)
  | i + 2 => cases placed

end RdpServer
