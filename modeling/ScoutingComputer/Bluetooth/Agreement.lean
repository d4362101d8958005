import ScoutingComputer.Bluetooth.Tablet

/-! What each party of a connection gets.

With silences shorter than the timeout both parties stay in step: every transaction ends
as agreed, some step that gets on is always there until all have ended, and there is a
bound on those steps. -/
namespace ScoutingComputer.Connection
open Socket Dialogue

variable {vector : Nat → TransactionType → Option (List UInt8)} {all ts : List Transaction} {s s' : State} {n : Nat}

/-! ### Some step gets on -/

theorem launch_some {k : Nat} {t : Transaction} (hvalid : Valid vector k t) :
    ∃ phase, launch vector k t.code = some phase := by
  cases t with
  | receive code payload persists =>
    have hnegative : ¬ code < 0 := Int8.not_lt.mpr hvalid.1
    unfold launch
    split
    · exact ⟨_, rfl⟩
    · exact ⟨_, if_neg hnegative⟩
  | send code first second =>
    obtain ⟨hcode, _, data, hdata, _⟩ := hvalid
    replace hdata : vector k (Transaction.send code first second).code = some data := hdata
    unfold launch
    split
    · exact ⟨_, rfl⟩
    · rw [hdata]
      exact ⟨_, if_pos hcode⟩

section
variable {server : Server} {parseJson : Text → Option Json}

/-- A step that gets on can be taken in time. -/
def Moves (server : Server) (parseJson : Text → Option Json) (vector : Nat → TransactionType → Option (List UInt8))
    (s : State) : Prop :=
  ∃ e, e.gains = true ∧ InTime s e ∧ (step server parseJson vector s e).isSome

/-- The computer can move, or it waits for bytes and there are none, or it has finished. -/
theorem computer_moves {c : Nat} {above : Order} (hvalid : ∀ (k : Nat) t, all[k]? = some t → Valid vector k t)
    (h : ComputerAt vector s.quietSince s.outcomes.length (all.drop s.outcomes.length) s.computer c above) :
    Moves server parseJson vector s ∨ (s.up = [] ∧ ∃ b above', above = .inl b :: above') ∨
      s.computer = .waiting ∧ all.drop s.outcomes.length = [] ∧ above = [] := by
  cases hcall : s.computer.call with
  | some call =>
    obtain ⟨wrap, hfollows, hsame, _, rfl, _, _, _, _⟩ := h.calling hcall
    cases call with
    | malloc size => exact .inl ⟨.malloc, rfl, trivial, by simp only [step, hcall]; rfl⟩
    | getTime => exact .inl ⟨.getTime, rfl, trivial, by simp only [step, hcall]; rfl⟩
    | send data =>
      obtain ⟨_, _, _, _, hne, _⟩ := hfollows.send_inv (hsame ▸ hcall)
      refine .inl ⟨.send 1, rfl, trivial, ?_⟩
      simp only [step, hcall]
      rw [if_neg Nat.one_ne_zero, if_pos (show 1 ≤ data.length from List.length_pos_iff.mpr hne)]
      rfl
    | recv len =>
      obtain ⟨_, bytes, order, _, rfl, rfl, hne, _⟩ := hfollows.recv_inv (hsame ▸ hcall)
      have hpos := List.length_pos_iff.mpr hne
      by_cases hup : s.up = []
      · cases bytes with
        | nil => exact absurd rfl hne
        | cons b bytes => exact .inr (.inl ⟨hup, b, _, rfl⟩)
      · have hroom : 1 ≤ s.up.length ∧ ((1 : Nat) : Int) ≤ (bytes.length : Int) :=
          ⟨List.length_pos_iff.mpr hup, by omega⟩
        refine .inl ⟨.recv 1 0, rfl, Nat.zero_le _, ?_⟩
        simp only [step, hcall]
        rw [if_neg Nat.one_ne_zero, if_pos hroom]
        rfl
  | none =>
    cases hphase : s.computer with
    | waiting =>
      rw [hphase] at h
      obtain ⟨_, habove⟩ := h.of_waiting
      by_cases hup : s.up = []
      · cases hdrop : all.drop s.outcomes.length with
        | nil =>
          rw [hdrop] at habove
          exact .inr (.inr ⟨rfl, rfl, habove⟩)
        | cons t ts =>
          rw [hdrop] at habove
          exact .inr (.inl ⟨hup, _, _, habove⟩)
      · refine .inl ⟨.request, rfl, trivial, ?_⟩
        simp only [step, hphase, if_neg hup]
        rfl
    | typing program =>
      rw [hphase] at h hcall
      obtain ⟨code, hdone⟩ := h.typed hcall
      obtain ⟨t, ts, hdrop, rfl, _, _⟩ := h.of_typed hdone
      obtain ⟨phase, hlaunch⟩ := launch_some (hvalid _ t (drop_cons hdrop).1)
      refine .inl ⟨.launch, rfl, trivial, ?_⟩
      simp only [step, hphase, hdone, hlaunch]
      rfl
    | transfer code tested program =>
      rw [hphase] at h hcall
      obtain ⟨_, _, t, _, _, _, hfollows, _, _⟩ := h.of_transfer
      have hdone := hfollows.done_of_call hcall
      cases tested with
      | true =>
        refine .inl ⟨.handle (fun _ => true) ⟨[], []⟩ ⟨[], 0⟩, rfl, trivial, ?_⟩
        simp only [step, hphase, hdone]
        rfl
      | false =>
        refine .inl ⟨.test, rfl, trivial, ?_⟩
        simp only [step, hphase]
        split <;> rfl
    | closed | crashed =>
      rw [hphase] at h
      generalize all.drop s.outcomes.length = ts at h
      cases h

/-- So can the tablet. -/
theorem tablet_moves {d : Nat} {below : Order}
    (h : TabletAt vector s.received.length (all.drop s.received.length) s.talk s.transactions d below) :
    Moves server parseJson vector s ∨ (s.down = [] ∧ ∃ b below', below = .inr b :: below') ∨
      s.talk = none ∧ all.drop s.received.length = [] ∧ below = [] := by
  cases htalk : s.talk with
  | none =>
    rw [htalk] at h
    obtain ⟨htransactions, _, hbelow⟩ := h.of_idle
    cases hdrop : all.drop s.received.length with
    | nil =>
      rw [hdrop] at hbelow
      exact .inr (.inr ⟨rfl, rfl, hbelow⟩)
    | cons t ts =>
      refine .inl ⟨.begin_, rfl, trivial, ?_⟩
      rw [hdrop] at htransactions
      simp only [step, htalk, htransactions]
      rfl
  | some talk =>
    rw [htalk] at h
    obtain ⟨_, order, t, _, htalks, _, hbelow⟩ := h.of_talking
    cases talk with
    | finish received success => exact .inl ⟨.finish, rfl, trivial, by simp only [step, htalk]; rfl⟩
    | say bytes next =>
      cases bytes with
      | nil => exact .inl ⟨.turn, rfl, trivial, by simp only [step, htalk]; rfl⟩
      | cons b bytes =>
        refine .inl ⟨.say 1, rfl, trivial, ?_⟩
        simp only [step, htalk]
        rw [if_pos ⟨Nat.one_pos, by simp⟩]
        rfl
    | hear total before next =>
      obtain ⟨_, bytes, order', _, rfl, htotal, _⟩ := htalks.hear_inv
      cases bytes with
      | nil =>
        refine .inl ⟨.turn, rfl, trivial, ?_⟩
        simp only [step, htalk]
        rw [if_pos (show before.length = total from htotal)]
        rfl
      | cons b bytes =>
        by_cases hdown : s.down = []
        · exact .inr (.inl ⟨hdown, b, _, hbelow⟩)
        · have hpos := List.length_pos_iff.mpr hdown
          rw [List.length_cons] at htotal
          refine .inl ⟨.hear 1, rfl, trivial, ?_⟩
          simp only [step, htalk]
          rw [if_pos ⟨Nat.one_pos, hpos, by omega⟩]
          rfl

/-- Both parties are at the end of all transactions. -/
structure Complete (all : List Transaction) (s : State) : Prop where
  computer : s.computer = .waiting
  tablet : s.talk = none
  outcomes : s.outcomes.length = all.length
  received : s.received.length = all.length
  up : s.up = []
  down : s.down = []

theorem length_of_agreed {α : Type} {f : Nat → Transaction → α} {l : List α}
    (h : ∀ (k : Nat) a, l[k]? = some a → ∃ t, all[k]? = some t ∧ a = f k t) (hdrop : all.drop l.length = []) :
    l.length = all.length := by
  have hge := List.drop_eq_nil_iff.mp hdrop
  cases hlast : l.length with
  | zero => omega
  | succ m =>
    obtain ⟨t, ht, _⟩ := h m _ (List.getElem?_eq_getElem (by omega))
    have := (List.getElem?_eq_some_iff.mp ht).1
    omega

/-- Two parties in step are done, or one of them can move. -/
theorem inStep_moves (hvalid : ∀ (k : Nat) t, all[k]? = some t → Valid vector k t) (h : InStep vector all n s) :
    Moves server parseJson vector s ∨ Complete all s := by
  obtain ⟨above, below, c, d, _, hcomputer, htablet, hlinked⟩ := h.sides
  obtain hmoves | ⟨hup, b, above', rfl⟩ | ⟨hwaiting, hdrop, rfl⟩ := computer_moves hvalid hcomputer
  · exact .inl hmoves
  · obtain hmoves | ⟨hdown, b', below', rfl⟩ | ⟨_, _, rfl⟩ := tablet_moves htablet
    · exact .inl hmoves
    · obtain hbytes | hbytes | ⟨_, hsame⟩ := hlinked.hearing_up
      · exact absurd hup hbytes
      · exact absurd hdown hbytes
      · cases hsame
    · obtain hbytes | hbytes | ⟨_, hsame⟩ := hlinked.hearing_up
      · exact absurd hup hbytes
      · exact absurd hlinked.below_finished hbytes
      · cases hsame
  · obtain hmoves | ⟨hdown, b', below', rfl⟩ | ⟨hnone, hdrop', rfl⟩ := tablet_moves htablet
    · exact .inl hmoves
    · obtain hbytes | hbytes | ⟨_, hsame⟩ := hlinked.hearing_down
      · exact absurd hdown hbytes
      · exact absurd hlinked.above_finished hbytes
      · cases hsame
    · exact .inr ⟨hwaiting, hnone, length_of_agreed h.outcomes hdrop, length_of_agreed h.received hdrop',
        hlinked.above_finished, hlinked.below_finished⟩

end

/-! ### Agreement -/

/-- A transaction that the tablet carries through. -/
def Transaction.Willing : Transaction → Prop
  | receive code _ _ => code ≠ TRANS_CLOSE_SOCKET
  | send _ first second => first = true ∧ second = true

/-- Every transaction of the computer has returned the payload of the tablet or has been
acknowledged, the tablet has got the data of the computer, both with success; only codes
have been read as codes; and nothing is on the way between two transactions. -/
structure Agreement (vector : Nat → TransactionType → Option (List UInt8)) (all : List Transaction) (s : State) :
    Prop where
  outcomes : ∀ (k : Nat) o, s.outcomes[k]? = some o →
    ∃ t, all[k]? = some t ∧ o = Transaction.outcome t ∧ o.success = true
  received : ∀ (k : Nat) r, s.received[k]? = some r →
    ∃ t, all[k]? = some t ∧ r = Transaction.got (dataOf vector k t) t ∧ r.2 = true
  codes : ∀ part ∈ s.codeParts, part = .code
  level : s.computer = .waiting → s.talk = none → s.outcomes.length = s.received.length → s.up = [] ∧ s.down = []

theorem Transaction.Willing.succeeds {t : Transaction} (h : t.Willing) (data : List UInt8) :
    t.value.2 = true ∧ (t.got data).2 = true := by
  cases t with
  | receive code payload persists => exact ⟨rfl, rfl⟩
  | send code first second =>
    obtain ⟨rfl, rfl⟩ := h
    exact ⟨rfl, rfl⟩

theorem not_closes (h : ∀ t ∈ all, t.Willing) (hvalid : ∀ (k : Nat) t, all[k]? = some t → Valid vector k t) :
    ¬ Closes all := by
  intro hcloses
  cases hcloses with
  | asked t ht hclose =>
    obtain ⟨k, hk⟩ := List.getElem?_of_mem ht
    have hsize := hvalid k t hk
    cases t with
    | receive code payload persists => exact h _ ht hclose
    | send code first second =>
      replace hclose : code = TRANS_CLOSE_SOCKET := hclose
      have hnegative := hsize.1
      rw [hclose] at hnegative
      exact absurd hnegative (by decide)
  | failed t ht hfailed =>
    rw [((h t ht).succeeds []).1] at hfailed
    cases hfailed

theorem inStep_agreement (hwilling : ∀ t ∈ all, t.Willing) (h : InStep vector all n s) : Agreement vector all s where
  outcomes := by
    intro k o ho
    obtain ⟨t, ht, rfl⟩ := h.outcomes k o ho
    exact ⟨t, ht, rfl, ((hwilling t (List.mem_of_getElem? ht)).succeeds []).1⟩
  received := by
    intro k r hr
    obtain ⟨t, ht, rfl⟩ := h.received k r hr
    exact ⟨t, ht, rfl, ((hwilling t (List.mem_of_getElem? ht)).succeeds _).2⟩
  codes := h.parts
  level := by
    intro hwaiting hnone hlength
    obtain ⟨above, below, c, d, _, hcomputer, htablet, hlinked⟩ := h.sides
    rw [hwaiting] at hcomputer
    rw [hnone] at htablet
    obtain ⟨_, rfl⟩ := hcomputer.of_waiting
    obtain ⟨_, _, rfl⟩ := htablet.of_idle
    rw [hlength] at hlinked
    exact hlinked.level

/-! ### A name that arrives -/

/-- A receive that gets something and does not stop the clock for long. -/
def Event.prompt : Event → Bool
  | .recv n late => decide (0 < n ∧ late ≤ timeout)
  | _ => true

theorem prompt_inTime {e : Event} (h : e.prompt = true) (s : State) : InTime s e := by
  cases e with
  | recv n late =>
    have hprompt := of_decide_eq_true h
    show if n = 0 then s.now + late ≤ s.quietSince + timeout else late ≤ timeout
    rw [if_neg (Nat.ne_of_gt hprompt.1)]
    exact hprompt.2
  | _ => trivial

theorem meets_prompt {server : Server} {parseJson : Text → Option Json}
    {vector : Nat → TransactionType → Option (List UInt8)} {events : List Event} (h : events.all Event.prompt = true)
    (s : State) : Machine.Meets (step server parseJson vector) InTime s events :=
  Machine.meets_of_forall (fun e he => prompt_inTime (List.all_eq_true.mp h e he)) s

/-- The conductor handles the result with every `INSERT` executed. -/
def handled : Event := .handle (fun _ => true) ⟨[], []⟩ ⟨[], 0⟩

/-- A tablet sends the name of one byte. -/
def sendsName : List Transaction := [.receive TRANS_RECV_TABLET_INFO [65] false]

def nameArrives : List Event :=
  [.begin_, .say 1, .turn, .request, .getTime, .malloc, .recv 1 0, .launch, .test, .malloc, .send 3, .hear 3, .turn,
    .say 4, .turn, .getTime, .malloc, .recv 4 0, .malloc, .send 3, .hear 3, .turn, .say 1, .turn, .getTime, .malloc,
    .recv 1 0, handled, .finish]
theorem sendsName_valid (k : Nat) (t : Transaction) (h : sendsName[k]? = some t) :
    Valid (fun _ _ => none) k t ∧ t.Willing := by
  cases k with
  | zero =>
    cases h
    have hwilling : TRANS_RECV_TABLET_INFO ≠ TRANS_CLOSE_SOCKET := by decide
    exact ⟨⟨by decide, by decide⟩, hwilling⟩
  | succ k => cases h

/-- **The framing is agreed on**: with silences shorter than the timeout every transaction
ends as agreed and with success, nothing is on the way between two of them, and all end
after a bounded number of steps that get on, of which there is always another. -/
theorem framing_agreement (server : Server) (parseJson : Text → Option Json)
    (vector : Nat → TransactionType → Option (List UInt8)) (all : List Transaction) (events : List Event) (s : State)
    (hvalid : ∀ (k : Nat) t, all[k]? = some t → Valid vector k t) (hwilling : ∀ t ∈ all, t.Willing)
    (hrule : Machine.Meets (step server parseJson vector) InTime (start all) events)
    (hrun : Machine.run (step server parseJson vector) (start all) events = some s) :
    Agreement vector all s ∧ events.countP Event.gains ≤ computerCost vector 0 all + tabletCost vector 0 all ∧
      (Moves server parseJson vector s ∨ Complete all s) := by
  have hstep : ∀ n s e s', InStep vector all n s → InTime s e → step server parseJson vector s e = some s' →
      ∃ n', InStep vector all n' s' ∧ n' ≤ n ∧ (e.gains = true → n' < n) := by
    intro n s e s' h hintime hs
    obtain hadvances | ⟨⟨hlate, _⟩ | ⟨hcloses, _⟩, _⟩ := step_inStep hvalid h hs
    · exact hadvances
    · exact absurd hintime hlate
    · exact absurd hcloses (not_closes hwilling hvalid)
  obtain ⟨n, h, hbudget⟩ := Machine.budget_run hstep (inStep_start vector all) hrule hrun
  exact ⟨inStep_agreement hwilling h, by omega, inStep_moves hvalid h⟩

theorem framing_agreement_name :
    ∃ s, Machine.run (step plainServer (fun _ => none) fun _ _ => none) (start sendsName) nameArrives =
        some s ∧
      s.outcomes.length = 1 ∧ s.received = [(none, true)] ∧ Agreement (fun _ _ => none) sendsName s := by
  refine ⟨_, rfl, rfl, rfl, (framing_agreement plainServer (fun _ => none) (fun _ _ => none) sendsName
    nameArrives _ (fun k t h => (sendsName_valid k t h).1) ?_ (meets_prompt rfl _) rfl).1⟩
  intro t ht
  obtain ⟨k, hk⟩ := List.getElem?_of_mem ht
  exact (sendsName_valid k t hk).2

end ScoutingComputer.Connection
