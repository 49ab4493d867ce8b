import Mathlib.Data.List.Nodup
import Mathlib.Data.List.Perm.Subperm
import WorkflowGraph.Proofs.Phases

/-!
# The ledger of a bus

Contexts, runners and others may share one bus.  The bus does not know who made a registration, so a
*ledger* is kept beside it, moment by moment: an entry for each registration ever made, who made it,
and whether its token has been disposed of.  Nothing that runs looks at the ledger.

* The bus holds the registrations whose tokens have not been disposed of, in the order in which they
  were made (`Ledger.Mirrors`).
* A context tracks registrations made through it only, and all of them that stand
  (`Ledger.Tracks`).
-/

namespace List

variable {α : Type}

lemma Sublist.filter_eq {part whole : List α} (sublist : part <+ whole) (nodup : whole.Nodup)
    {p : α → Bool} (complete : ∀ x ∈ whole, p x → x ∈ part) : part.filter p = whole.filter p := by
  apply (sublist.filter p).eq_of_length_le
  apply (Nodup.subperm (nodup.filter p) _).length_le
  intro x hx
  obtain ⟨hmem, hp⟩ := List.mem_filter.mp hx
  exact List.mem_filter.mpr ⟨complete x hmem hp, hp⟩

end List

namespace WorkflowGraph

open Command

/-- Who makes a registration. -/
inductive Maker where
  /-- Whoever makes it through the context of a party. -/
  | context (party : Nat)
  /-- The party itself, a runner, for its bindings. -/
  | bindings (party : Nat)
  /-- Somebody who has the bus only. -/
  | outside
deriving DecidableEq, Repr

/-- Whether the registration is one for the bindings of a runner. -/
def Maker.isBindings : Maker → Bool
  | .bindings _ => true
  | _ => false

/-- A registration that has been made. -/
structure Lease where
  maker : Maker
  registration : Registration Handler
  /-- Whether the token has been disposed of. -/
  disposed : Bool

def Lease.token (e : Lease) : Token := e.registration.token

/-- The registrations made on a bus, oldest first. -/
abbrev Ledger := List Lease

namespace Ledger

/-- The tokens that a maker has been given. -/
def tokens (l : Ledger) (maker : Maker) : List Token :=
  (l.filter fun e => e.maker == maker).map (·.token)

/-- The entries whose tokens have not been disposed of. -/
def standing (l : Ledger) : Ledger := l.filter fun e => !e.disposed

/-- The registrations of a maker whose tokens have not been disposed of. -/
def held (l : Ledger) (maker : Maker) : List (Registration Handler) :=
  (l.standing.filter fun e => e.maker == maker).map (·.registration)

/-- Whether a token has been disposed of. -/
def isDisposed (l : Ledger) (t : Token) : Bool := l.any fun e => e.token == t && e.disposed

/-- The ledger after tokens have been disposed of. -/
def close (l : Ledger) (ended : List Token) : Ledger :=
  l.map fun e => { e with disposed := e.disposed || ended.contains e.token }

/-- The ledger after tokens have been disposed of and a registration may have been made. -/
def after (l : Ledger) (ended : List Token) (opened : Option Lease) : Ledger :=
  l.close ended ++ opened.toList

variable {l : Ledger} {ended : List Token} {opened : Option Lease} {maker : Maker}

lemma mem_tokens {t : Token} : t ∈ l.tokens maker ↔ ∃ e ∈ l, e.maker = maker ∧ e.token = t := by
  simp [tokens, and_assoc]

lemma tokens_after :
    (l.after ended opened).tokens maker =
      l.tokens maker ++ tokens opened.toList maker := by
  have hclose : (l.close ended).tokens maker = l.tokens maker := by
    simp [tokens, close, List.filter_map, Function.comp_def, Lease.token]
  rw [← hclose]
  simp [after, tokens]

lemma standing_close :
    (l.close ended).standing = l.standing.filter fun e => !ended.contains e.token := by
  induction l with
  | nil => rfl
  | cons e rest ih =>
      obtain ⟨maker, registration, disposed⟩ := e
      simp only [close, standing] at ih
      cases disposed with
      | true => simpa [close, standing, List.filter_cons, Lease.token] using ih
      | false =>
          by_cases hended : registration.token ∈ ended
          · simpa [close, standing, List.filter_cons, Lease.token, hended] using ih
          · simpa [close, standing, List.filter_cons, Lease.token, hended] using ih

lemma standing_after (fresh : ∀ e ∈ opened, e.disposed = false) :
    (l.after ended opened).standing =
      (l.standing.filter fun e => !ended.contains e.token) ++ opened.toList := by
  have hopened : standing opened.toList = opened.toList := by
    refine List.filter_eq_self.mpr fun e he => ?_
    simp [fresh e (Option.mem_toList.mp he)]
  rw [after, standing, List.filter_append]
  exact congrArg₂ (· ++ ·) standing_close hopened

lemma held_after (fresh : ∀ e ∈ opened, e.disposed = false) :
    (l.after ended opened).held maker =
      ((l.held maker).filter fun r => !ended.contains r.token) ++
        (opened.toList.filter fun e => e.maker == maker).map (·.registration) := by
  rw [held, standing_after fresh, List.filter_append, List.map_append, held]
  congr 1
  simp only [List.filter_map, List.filter_filter, Function.comp_def, Lease.token, Bool.and_comm]

end Ledger

/-! ## What goes into the ledger -/

namespace Moment

/-- The tokens that are disposed of in a moment. -/
def ended : Moment → Session → List Token
  | .did d, s | .managed d, s => d.ended s
  | .called .., _ | .compared, _ => []

/-- The registration that is made in a moment, in the session of a party.  What the context tracks
has been made through it.  What is made behind its back is made by a node or a host on the bus
itself, or by the runner for its bindings. -/
def lease (party : Nat) : Moment → Session → Option Lease
  | .did d, s =>
    (d.opened s).map fun r => ⟨if (d.tracked s).isSome then .context party else .outside, r, false⟩
  | .managed d, s =>
    (d.opened s).map fun r =>
      ⟨if (d.tracked s).isSome then .context party else .bindings party, r, false⟩
  | .called .., _ | .compared, _ => none

end Moment

namespace Ledger

/-- The ledger after a moment in the session of a party. -/
def note (l : Ledger) (party : Nat) (m : Moment) (s : Session) : Ledger :=
  l.after (m.ended s) (m.lease party s)

/-- The ledger after some moments. -/
def noteAll (l : Ledger) (party : Nat) : List Moment → Session → Ledger
  | [], _ => l
  | m :: rest, s => noteAll (l.note party m s) party rest (m.replay s)

lemma noteAll_append (l : Ledger) (party : Nat) (before after : List Moment) (s : Session) :
    l.noteAll party (before ++ after) s =
      (l.noteAll party before s).noteAll party after (Moment.replayAll before s) := by
  induction before generalizing l s with
  | nil => rfl
  | cons m rest ih => exact ih (l.note party m s) (m.replay s)

end Ledger

lemma Moment.of_mem_lease {party : Nat} {m : Moment} {s : Session} {e : Lease}
    (h : e ∈ m.lease party s) :
    e.disposed = false ∧ e.token.id = s.hub.bus.nextId ∧
      (e.maker = .context party ∨ e.maker = .outside ∨ e.maker = .bindings party) := by
  cases m with
  | did d | managed d =>
      obtain ⟨r, hr, rfl⟩ := Option.map_eq_some_iff.mp h
      refine ⟨rfl, Deed.id_of_opened hr, ?_⟩
      by_cases htracked : (d.tracked s).isSome
      · simp [htracked]
      · simp [htracked]
  | called | compared => cases h

/-- Nothing but what the party and its guests make comes into the ledger in its session. -/
lemma Ledger.maker_of_mem_noteAll {l : Ledger} {party : Nat} {moments : List Moment} {s : Session}
    {e : Lease} (h : e ∈ l.noteAll party moments s) :
    (∃ e' ∈ l, e'.maker = e.maker) ∨
      e.maker = .context party ∨ e.maker = .outside ∨ e.maker = .bindings party := by
  induction moments generalizing l s with
  | nil => exact .inl ⟨e, h, rfl⟩
  | cons m rest ih =>
      rcases ih h with ⟨e', he', hmaker⟩ | hown
      · rw [← hmaker]
        rcases List.mem_append.mp he' with hold | hnew
        · obtain ⟨e'', he'', rfl⟩ := List.mem_map.mp hold
          exact .inl ⟨e'', he'', rfl⟩
        · exact .inr (Moment.of_mem_lease (Option.mem_toList.mp hnew)).2.2
      · exact .inr hown

/-- What a moment does to the bus. -/
lemma Moment.bus_replay (party : Nat) (m : Moment) (s : Session) :
    (m.replay s).hub.bus =
      { registrations := (s.hub.bus.registrations.filter fun r => !(m.ended s).contains r.token) ++
          ((m.lease party s).map (·.registration)).toList
        nextId := s.hub.bus.nextId + (m.lease party s).toList.length } := by
  have hdeed : ∀ (d : Deed) (maker : Maker), (d.perform s).hub.bus =
      { registrations := (s.hub.bus.registrations.filter fun r => !(d.ended s).contains r.token) ++
          (((d.opened s).map fun r => (⟨maker, r, false⟩ : Lease)).map (·.registration)).toList
        nextId := s.hub.bus.nextId +
          ((d.opened s).map fun r => (⟨maker, r, false⟩ : Lease)).toList.length } := by
    intro d maker
    rw [Deed.bus_perform]
    cases d.opened s <;> rfl
  cases m with
  | did d | managed d => exact hdeed d _
  | called | compared => simp [lease, ended, replay, List.filter_eq_self.mpr]

/-! ## The bus -/

/-- The bus holds what stands, and no token has been given out twice. -/
structure Ledger.Mirrors (l : Ledger) (b : Bus Handler) : Prop where
  registrations : b.registrations = l.standing.map (·.registration)
  increasing : (l.map (·.token.id)).Pairwise (· < ·)
  old : ∀ e ∈ l, e.token.id < b.nextId

namespace Ledger.Mirrors

variable {l : Ledger} {b : Bus Handler} {maker : Maker}

lemma empty : Mirrors [] {} := ⟨rfl, .nil, nofun⟩

lemma eq_of_token_eq (mirrors : l.Mirrors b) {e e' : Lease} (he : e ∈ l) (he' : e' ∈ l)
    (h : e.token = e'.token) : e = e' := by
  have hnodup : (l.map (·.token.id)).Nodup := mirrors.increasing.imp Nat.ne_of_lt
  exact List.inj_on_of_nodup_map hnodup he he' (congrArg Token.id h)

lemma nodup_tokens (mirrors : l.Mirrors b) (maker : Maker) : (l.tokens maker).Nodup := by
  have hsublist := (List.filter_sublist (l := l) (p := fun e => e.maker == maker)).map (·.token.id)
  have hnodup := (mirrors.increasing.sublist hsublist).imp Nat.ne_of_lt
  rw [tokens]
  apply List.Nodup.of_map Token.id
  rw [List.map_map]
  exact hnodup

lemma not_mem_tokens (mirrors : l.Mirrors b) {maker other : Maker} (ne : maker ≠ other) {t : Token}
    (h : t ∈ l.tokens maker) : t ∉ l.tokens other := by
  intro hother
  obtain ⟨e, he, rfl, rfl⟩ := mem_tokens.mp h
  obtain ⟨e', he', rfl, htoken⟩ := mem_tokens.mp hother
  exact ne (by rw [mirrors.eq_of_token_eq he' he htoken])

/-- The token of an entry is live when it has not been disposed of. -/
lemma isLive_iff (mirrors : l.Mirrors b) {e : Lease} (he : e ∈ l) :
    b.isLive e.token ↔ e.disposed = false := by
  rw [Bus.isLive_iff, mirrors.registrations]
  constructor
  · rintro ⟨r, hr, htoken⟩
    obtain ⟨e', he', rfl⟩ := List.mem_map.mp hr
    obtain ⟨hmem, hstands⟩ := List.mem_filter.mp he'
    rw [mirrors.eq_of_token_eq he hmem htoken.symm]
    simpa using hstands
  · intro hstands
    exact ⟨e.registration, List.mem_map_of_mem (List.mem_filter.mpr ⟨he, by simp [hstands]⟩), rfl⟩

lemma isDisposed_eq (mirrors : l.Mirrors b) {t : Token} (h : t ∈ l.tokens maker) :
    l.isDisposed t = !b.isLive t := by
  obtain ⟨e, he, -, rfl⟩ := mem_tokens.mp h
  have hlive := mirrors.isLive_iff he
  have hdisposed : l.isDisposed e.token ↔ e.disposed = true := by
    simp only [isDisposed, List.any_eq_true, Bool.and_eq_true, beq_iff_eq]
    constructor
    · rintro ⟨e', he', htoken, hdisposed⟩
      rwa [mirrors.eq_of_token_eq he he' htoken.symm]
    · exact fun hdisposed => ⟨e, he, rfl, hdisposed⟩
  rw [Bool.eq_iff_iff, hdisposed, Bool.not_eq_true', ← Bool.not_eq_true, hlive, Bool.not_eq_false]

/-- What a maker holds is what the bus has under the tokens of the maker. -/
lemma held_eq (mirrors : l.Mirrors b) (maker : Maker) :
    l.held maker = b.registrations.filter fun r => (l.tokens maker).contains r.token := by
  rw [mirrors.registrations, List.filter_map, held]
  congr 1
  apply List.filter_congr
  intro e he
  have hmem := (List.mem_filter.mp he).1
  rw [Bool.eq_iff_iff]
  simp only [beq_iff_eq, Function.comp_apply, List.contains_iff_mem, mem_tokens]
  constructor
  · exact fun hmaker => ⟨e, hmem, hmaker, rfl⟩
  · rintro ⟨e', he', hmaker, htoken⟩
    rwa [mirrors.eq_of_token_eq hmem he' htoken.symm]

/-- The tokens that a maker holds are those given to it that are live. -/
lemma map_token_held (mirrors : l.Mirrors b) (maker : Maker) :
    (l.held maker).map (·.token) = (l.tokens maker).filter b.isLive := by
  have hlive : (l.tokens maker).filter b.isLive =
      ((l.filter fun e => e.maker == maker).filter fun e => !e.disposed).map (·.token) := by
    rw [tokens, List.filter_map]
    congr 1
    apply List.filter_congr
    intro e he
    rw [Bool.eq_iff_iff, Function.comp_apply, mirrors.isLive_iff (List.mem_filter.mp he).1]
    simp
  rw [hlive, held, standing, List.filter_filter, List.filter_filter, List.map_map]
  simp only [Bool.and_comm]
  rfl

/-- Ending registrations and making one is seen on the bus. -/
lemma after (mirrors : l.Mirrors b) (ended : List Token) {opened : Option Lease}
    (fresh : ∀ e ∈ opened, e.disposed = false ∧ e.token.id = b.nextId) :
    (l.after ended opened).Mirrors
      { registrations := (b.registrations.filter fun r => !ended.contains r.token) ++
          (opened.map (·.registration)).toList
        nextId := b.nextId + opened.toList.length } := by
  have hids : (l.close ended).map (·.token.id) = l.map (·.token.id) := by
    simp [close, Lease.token, Function.comp_def]
  refine ⟨?_, ?_, ?_⟩
  · rw [standing_after fun e he => (fresh e he).1, mirrors.registrations, List.map_append,
      List.filter_map]
    cases opened <;> rfl
  · rw [Ledger.after, List.map_append, hids, List.pairwise_append]
    refine ⟨mirrors.increasing, ?_, ?_⟩
    · cases opened with
      | none => exact .nil
      | some e => exact List.pairwise_singleton _ _
    -- What has been opened gets an id above those of all that went before.
    · intro n hn k hk
      obtain ⟨e, he, rfl⟩ := List.mem_map.mp hn
      obtain ⟨e', he', rfl⟩ := List.mem_map.mp hk
      rw [(fresh e' (Option.mem_toList.mp he')).2]
      exact mirrors.old e he
  · intro e he
    rcases List.mem_append.mp he with hold | hnew
    · obtain ⟨e', he', rfl⟩ := List.mem_map.mp hold
      exact Nat.lt_of_lt_of_le (mirrors.old e' he') (Nat.le_add_right _ _)
    · have hopened := Option.mem_toList.mp hnew
      show e.token.id < b.nextId + opened.toList.length
      rw [(fresh e hopened).2, Option.mem_def.mp hopened]
      exact Nat.lt_succ_self _

/-- What happens in a session is noted in the ledger as it happens on the bus. -/
lemma note {s : Session} (mirrors : l.Mirrors s.hub.bus) (party : Nat) (m : Moment) :
    (l.note party m s).Mirrors (m.replay s).hub.bus := by
  rw [m.bus_replay party]
  exact mirrors.after _ fun e he => ⟨(Moment.of_mem_lease he).1, (Moment.of_mem_lease he).2.1⟩

lemma noteAll {s : Session} (mirrors : l.Mirrors s.hub.bus) (party : Nat) (moments : List Moment) :
    (l.noteAll party moments s).Mirrors (Moment.replayAll moments s).hub.bus := by
  induction moments generalizing l s with
  | nil => exact mirrors
  | cons m rest ih => exact ih (mirrors.note party m)

end Ledger.Mirrors

/-! ## Contexts -/

namespace Deed

variable {d : Deed} {s : Session}

/-- What is tracked after a deed has been tracked before, in the same order, or has just been
made. -/
lemma subscriptions_sublist (d : Deed) (s : Session) :
    (d.perform s).context.subscriptions.Sublist
      (s.context.subscriptions ++ (d.tracked s).toList) := by
  cases d with
  | subscribe | subscribeForNode | watch =>
      exact List.filter_sublist.append (List.Sublist.refl _)
  | releaseNode guid =>
      simp only [perform, Session.releaseNode, List.partition_eq_filter_filter]
      exact List.filter_sublist.trans (List.sublist_append_left _ _)
  | flush =>
      refine List.Sublist.trans ?_ (List.sublist_append_left _ _)
      rw [perform, subscriptions_flush]
  | release | reset | dispose => exact List.nil_sublist _
  | _ => exact List.sublist_append_left _ _

/-- What begins to be tracked has just been made. -/
lemma exists_opened_of_tracked {sub : Subscription} (h : d.tracked s = some sub) :
    ∃ r, d.opened s = some r ∧ r.token = sub.token := by
  cases d <;> cases h <;> exact ⟨_, rfl, rfl⟩

lemma Manages.opened_eq_none (manages : d.Manages) (s : Session) : d.opened s = none := by
  cases d with
  | subscribe | subscribeForNode | watch | connect => exact manages.elim
  | _ => rfl

/-- A deed disposes of a token that it is given, or of tokens that the context tracks. -/
lemma of_mem_ended {t : Token} (h : t ∈ d.ended s) :
    d = .disposeToken t ∨ t ∈ s.context.subscriptions.map (·.token) := by
  cases d with
  | disposeToken token =>
      rw [List.mem_singleton.mp h]
      exact .inl rfl
  | releaseNode guid =>
      obtain ⟨sub, hsub, rfl⟩ := List.mem_map.mp h
      exact .inr (List.mem_map_of_mem (List.mem_filter.mp hsub).1)
  | release | reset | dispose => exact .inr h
  | _ => cases h

end Deed

/-- Whatever the context of a party tracks has been made through it, and it tracks all of that which
stands. -/
structure Ledger.Tracks (l : Ledger) (party : Nat) (subscriptions : List Subscription) : Prop where
  sublist : (subscriptions.map (·.token)).Sublist (l.tokens (.context party))
  complete : ∀ r ∈ l.held (.context party), r.token ∈ subscriptions.map (·.token)

namespace Ledger.Tracks

variable {l : Ledger} {party : Nat} {subscriptions : List Subscription}

lemma nil (none : ∀ e ∈ l, e.maker ≠ .context party) : l.Tracks party [] := by
  refine ⟨List.nil_sublist _, ?_⟩
  intro r hr
  obtain ⟨e, he, -⟩ := List.mem_map.mp hr
  obtain ⟨hstands, hmaker⟩ := List.mem_filter.mp he
  exact absurd (by simpa using hmaker) (none e (List.mem_filter.mp hstands).1)

/-- What is disposed of, and what others make, leaves it so. -/
lemma after (tracks : l.Tracks party subscriptions) (ended : List Token) {opened : Option Lease}
    (other : ∀ e ∈ opened, e.disposed = false ∧ e.maker ≠ .context party) :
    (l.after ended opened).Tracks party subscriptions := by
  have hnone : (opened.toList.filter fun e => e.maker == .context party) = [] := by
    refine List.filter_eq_nil_iff.mpr fun e he => ?_
    simpa using (other e (Option.mem_toList.mp he)).2
  refine ⟨?_, ?_⟩
  · rw [tokens_after]
    exact tracks.sublist.trans (List.sublist_append_left _ _)
  · intro r hr
    rw [held_after fun e he => (other e he).1, hnone, List.map_nil, List.append_nil] at hr
    exact tracks.complete r (List.mem_filter.mp hr).1

/-- So does everything that a context does itself.  A registration is forgotten only when it has
ended, and what the context registers it tracks. -/
lemma perform {s : Session} (mirrors : l.Mirrors s.hub.bus)
    (tracks : l.Tracks party s.context.subscriptions) {d : Deed} {opened : Option Lease}
    (fresh : ∀ e ∈ opened, e.disposed = false)
    (own : tokens opened.toList (.context party) = (d.tracked s).toList.map (·.token)) :
    (l.after (d.ended s) opened).Tracks party (d.perform s).context.subscriptions := by
  refine ⟨?_, ?_⟩
  · rw [tokens_after, own]
    have hsublist := (d.subscriptions_sublist s).map (·.token)
    rw [List.map_append] at hsublist
    exact hsublist.trans (tracks.sublist.append (List.Sublist.refl _))
  · intro r hr
    rw [held_after fresh] at hr
    rcases List.mem_append.mp hr with hold | hnew
    · obtain ⟨hheld, hends⟩ := List.mem_filter.mp hold
      obtain ⟨sub, hsub, htoken⟩ := List.mem_map.mp (tracks.complete r hheld)
      -- A registration that the ledger holds is live, and live ones are not forgotten by a context.
      have hlive : s.hub.bus.isLive sub.token := by
        rw [mirrors.held_eq] at hheld
        exact (Bus.isLive_iff _ _).mpr ⟨r, (List.mem_filter.mp hheld).1, htoken.symm⟩
      have hkept : sub.token ∉ d.ended s := by simpa [htoken] using hends
      exact List.mem_map.mpr ⟨sub, Deed.mem_subscriptions_perform hsub hlive hkept, htoken⟩
    · obtain ⟨e, he, rfl⟩ := List.mem_map.mp hnew
      have htoken : e.token ∈ tokens opened.toList (.context party) := List.mem_map_of_mem he
      rw [own] at htoken
      obtain ⟨sub, hsub, htoken⟩ := List.mem_map.mp htoken
      exact List.mem_map.mpr
        ⟨sub, Deed.mem_subscriptions_of_tracked (Option.mem_toList.mp hsub), htoken⟩

/-- What happens in the session of the party leaves it so. -/
lemma note {s : Session} (mirrors : l.Mirrors s.hub.bus)
    (tracks : l.Tracks party s.context.subscriptions) (m : Moment) :
    (l.note party m s).Tracks party (m.replay s).context.subscriptions := by
  have hfresh : ∀ e ∈ m.lease party s, e.disposed = false :=
    fun e he => (Moment.of_mem_lease he).1
  have hown : ∀ (d : Deed) (other : Maker), other ≠ .context party →
      tokens ((d.opened s).map fun r =>
        (⟨if (d.tracked s).isSome then .context party else other, r, false⟩ : Lease)).toList
          (.context party) = (d.tracked s).toList.map (·.token) := by
    intro d other ne
    cases htracked : d.tracked s with
    | none => cases d.opened s <;> simp [tokens, ne]
    | some sub =>
        obtain ⟨r, hopened, htoken⟩ := Deed.exists_opened_of_tracked htracked
        simp [tokens, hopened, Lease.token, htoken]
  cases m with
  | did d => exact tracks.perform mirrors hfresh (hown d .outside nofun)
  | managed d => exact tracks.perform mirrors hfresh (hown d (.bindings party) nofun)
  | called | compared => exact tracks.after [] nofun

lemma noteAll {s : Session} (mirrors : l.Mirrors s.hub.bus)
    (tracks : l.Tracks party s.context.subscriptions) (moments : List Moment) :
    (l.noteAll party moments s).Tracks party
      (Moment.replayAll moments s).context.subscriptions := by
  induction moments generalizing l s with
  | nil => exact tracks
  | cons m rest ih => exact ih (mirrors.note party m) (tracks.note mirrors m)

/-- So does what happens in the session of another party. -/
lemma noteAll_other {other : Nat} (ne : other ≠ party) (tracks : l.Tracks party subscriptions)
    (moments : List Moment) (s : Session) :
    (l.noteAll other moments s).Tracks party subscriptions := by
  induction moments generalizing l s with
  | nil => exact tracks
  | cons m rest ih =>
      refine ih (tracks.after (m.ended s) fun e he => ?_) _
      obtain ⟨hfresh, -, hmaker⟩ := Moment.of_mem_lease he
      refine ⟨hfresh, ?_⟩
      rcases hmaker with h | h | h <;> simp [h, ne]

/-- The live tokens that the context tracks are those of the registrations made through it that
stand. -/
lemma live_eq {b : Bus Handler} (mirrors : l.Mirrors b) (tracks : l.Tracks party subscriptions) :
    (subscriptions.map (·.token)).filter b.isLive = (l.held (.context party)).map (·.token) := by
  rw [mirrors.map_token_held]
  apply tracks.sublist.filter_eq (mirrors.nodup_tokens _)
  intro t ht hlive
  have hheld : t ∈ (l.held (.context party)).map (·.token) := by
    rw [mirrors.map_token_held]
    exact List.mem_filter.mpr ⟨ht, hlive⟩
  obtain ⟨r, hr, rfl⟩ := List.mem_map.mp hheld
  exact tracks.complete r hr

lemma undisposed_eq {b : Bus Handler} (mirrors : l.Mirrors b)
    (tracks : l.Tracks party subscriptions) :
    (subscriptions.map (·.token)).filter (fun t => !l.isDisposed t) =
      (subscriptions.map (·.token)).filter b.isLive := by
  apply List.filter_congr
  intro t ht
  rw [mirrors.isDisposed_eq (tracks.sublist.subset ht), Bool.not_not]

end Ledger.Tracks

end WorkflowGraph
