import NamedQuery.CommandLine.Run
import NamedQuery.Proofs.Client.Limit
import NamedQuery.Proofs.CommandLine.Parser
import NamedQuery.Proofs.Session.Agreement

/-!
# Streams with a limit

Of a stream the command line prints as many elements as the limit allows, in order, a line each. It
fails only if it comes to an error before the limit is met. The two commands that open a stream
follow the same law; they differ in how the elements are read and shown.

* `Cursor.collect_eq`: what is taken from a stream, and the error that is met.
* `Obeys`: what the outcome has to do with the limit.
* `limited_stream_obeys`: both commands follow this law.
* `beyond_limits`: a limit beyond 64 bits is no limit, and an element whose message is too long is
  no element.
-/

namespace NamedQuery

/-! ## Values that are read as something else -/

section Leading

variable {ε α : Type}

/-- What is read of values, up to the first that cannot be read. -/
def leading (read : Value → Except ε α) : List Value → List α
  | [] => []
  | v :: vs =>
    match read v with
    | .error _ => []
    | .ok a => a :: leading read vs

/-- What is wrong with the first value that cannot be read. -/
def fault (read : Value → Except ε α) : List Value → Option ε
  | [] => none
  | v :: vs =>
    match read v with
    | .error e => some e
    | .ok _ => fault read vs

theorem leading_ok (vs : List Value) : leading (@Except.ok ε Value) vs = vs := by
  induction vs with
  | nil => rfl
  | cons v vs ih =>
    show v :: leading _ vs = _
    rw [ih]

theorem fault_ok (vs : List Value) : fault (@Except.ok ε Value) vs = none := by
  induction vs with
  | nil => rfl
  | cons v vs ih => exact ih

end Leading

namespace Cursor

variable {ε α : Type} {c : Cursor} {limit : Option Nat} {read : Value → Except ε α}
  {failed : Status → ε}

theorem collect_of_met (h : Limit.isMet limit c.received = true) :
    c.collect limit read failed = ([], none) := by
  rw [Limit.isMet] at h
  rw [collect, if_pos h]

theorem collect_of_last (h : Limit.isMet limit c.received = false)
    (hlast : c.next.1.isItem = false) :
    c.collect limit read failed = ([], c.next.1.failure?.map failed) := by
  rw [Limit.isMet] at h
  rw [collect, if_neg (ne_true_of_eq_false h)]
  split
  · rename_i hnext
    rw [hnext]
    rfl
  · rename_i hnext
    rw [hnext]
    rfl
  · rename_i hnext
    rw [hnext] at hlast
    cases hlast

theorem collect_of_item {v : Value} {c' : Cursor} (h : Limit.isMet limit c.received = false)
    (hnext : c.next = (.item v, c')) :
    c.collect limit read failed =
      match read v with
      | .error e => ([], some e)
      | .ok a => (a :: (c'.collect limit read failed).1, (c'.collect limit read failed).2) := by
  rw [Limit.isMet] at h
  rw [collect, if_neg (ne_true_of_eq_false h)]
  split
  · rename_i hnext'
    cases hnext.symm.trans hnext'
  · rename_i hnext'
    cases hnext.symm.trans hnext'
  · rename_i hnext'
    cases hnext.symm.trans hnext'
    rfl

/-- **What is taken from a stream.** It is what can be read of the values, up to the limit. An error
is met if the limit is not: that of the first value that cannot be read, or else that of the stream.
-/
theorem collect_eq (limit : Option Nat) (read : Value → Except ε α) (failed : Status → ε)
    (c : Cursor) :
    c.collect limit read failed =
      (Limit.take (limit.map (· - c.received)) (leading read c.values),
        if Limit.isMet limit (c.received + (leading read c.values).length) then none
        else (fault read c.values).or (c.last.failure?.map failed)) := by
  -- each value that is taken is counted, and the limit is compared with the count
  generalize hvs : c.values = vs
  induction vs generalizing c with
  | nil =>
    cases hmet : Limit.isMet limit c.received with
    | true =>
      rw [collect_of_met hmet, Limit.take_sub_of_met _ hmet]
      exact congrArg _ (if_pos hmet).symm
    | false =>
      rcases next_last_or_value c with ⟨-, hlast, -⟩ | ⟨v, vs, c', hvalues, -⟩
      · rw [collect_of_last hmet (by rw [hlast]; exact isItem_last c), hlast, leading, fault,
          Limit.take_nil, Option.none_or]
        exact congrArg _ (if_neg (ne_true_of_eq_false hmet)).symm
      · cases hvs.symm.trans hvalues
  | cons v vs ih =>
    cases hmet : Limit.isMet limit c.received with
    | true =>
      rw [collect_of_met hmet, Limit.take_sub_of_met _ hmet,
        if_pos (Limit.isMet_of_le hmet (Nat.le_add_right _ _))]
    | false =>
      rcases next_last_or_value c with
        ⟨hvalues, -⟩ | ⟨w, ws, c', hvalues, hnext, hrest, hlast, hcount⟩
      · cases hvs.symm.trans hvalues
      · cases hvs.symm.trans hvalues
        rw [collect_of_item hmet hnext, leading, fault]
        cases hread : read v with
        | error e =>
          dsimp only
          rw [Limit.take_nil, List.length_nil, Nat.add_zero, hmet]
          rfl
        | ok a =>
          dsimp only
          rw [ih c' hrest, hlast, hcount, Limit.take_cons_pred a _ (Limit.sub_ne_zero hmet),
            Limit.sub_succ, List.length_cons, Nat.add_assoc, Nat.add_comm 1]

end Cursor

namespace CommandLine

/-! ## The law -/

/-- What the outcome of a command has to do with its limit, when it prints these texts, and when
this error, if it is one, stands behind them. -/
structure Obeys (limit : Option Nat) (texts : List String) (failure : Option String)
    (o : Outcome) : Prop where
  output : o.output = String.join ((Limit.take limit texts).map line)
  success : Limit.isMet limit texts.length = true ∨ failure = none → o.exit = 0 ∧ o.errors = ""
  failing : ∀ text, Limit.isMet limit texts.length = false → failure = some text →
    o.exit = 1 ∧ o.errors = line text

/-- The output grows with the limit. -/
theorem Obeys.output_isPrefix {limit limit' : Option Nat} {texts : List String}
    {failure : Option String} {o o' : Outcome} (ho : Obeys limit texts failure o)
    (ho' : Obeys limit' texts failure o')
    (h : ∀ n, limit' = some n → Limit.isMet limit n = true) :
    o.output.toList <+: o'.output.toList := by
  obtain ⟨more, hmore⟩ := (Limit.take_isPrefix_take h texts).map line
  rw [ho.output, ho'.output, ← hmore, String.join_append, String.toList_append]
  exact List.prefix_append _ _

theorem obeys_outcomeOfAll {ε α : Type} (failed : ε → String) (shown : α → String)
    (limit : Option Nat) (as : List α) (e : Option ε) :
    Obeys limit (as.map shown) (e.map failed)
      (outcomeOfAll failed shown
        (Limit.take limit as, if Limit.isMet limit as.length then none else e)) := by
  have houtput (error : Option ε) :
      (outcomeOfAll failed shown (Limit.take limit as, error)).output =
        String.join ((Limit.take limit (as.map shown)).map line) := by
    rw [Limit.take_map, List.map_map]
    cases error <;> rfl
  refine ⟨houtput _, fun h => ?_, fun text hmet hfailure => ?_⟩
  · -- the limit is met, or there is no error
    have hnone : (if Limit.isMet limit as.length then none else e) = none := by
      rcases h with hmet | hfailure
      · rw [List.length_map] at hmet
        exact if_pos hmet
      · rw [Option.map_eq_none_iff.mp hfailure, ite_self]
    rw [hnone]
    exact ⟨rfl, rfl⟩
  · obtain ⟨e, rfl, rfl⟩ := Option.map_eq_some_iff.mp hfailure
    rw [List.length_map] at hmet
    rw [if_neg (ne_true_of_eq_false hmet)]
    exact ⟨rfl, rfl⟩

/-- The service that is left behind is of no account. -/
theorem Obeys.leaving {limit : Option Nat} {texts : List String} {failure : Option String}
    {o : Outcome} (h : Obeys limit texts failure o) (service : Option Script) :
    Obeys limit texts failure { o with service } :=
  ⟨h.output, h.success, h.failing⟩

/-! ## Commands that open a stream -/

/-- What a stream is opened for: values, or deposits. -/
inductive Subscription where
  | values (name : String) (params : List Value) (headers : List Header)
  | deposits

/-- The deposit in a value, or the error that is told of it. -/
def readDeposit (v : Value) : Except QueryError Deposit := (Deposit.ofValue v).mapError .value

namespace Subscription

/-- The command with a limit. -/
def command (limit : Option Nat) : Subscription → Command
  | values name params headers => .stream name params headers limit
  | deposits => .deposits limit

/-- The request that opens the stream. -/
def request : Subscription → Request
  | values name params headers => ⟨name, params, headers⟩
  | deposits => .deposits

/-- The texts of the elements, up to the first that is no deposit where deposits are asked for. -/
def texts (vs : List Value) : Subscription → List String
  | values .. => vs.map Report.value
  | deposits => (leading readDeposit vs).map Report.deposit

/-- The text of the error behind these: of an element that is no deposit, or of the stream. -/
def failure (p : Palette) (vs : List Value) (last : Delivery) : Subscription → Option String
  | values .. => (last.failure?.map .status).map (Report.transportError p)
  | deposits =>
    ((fault readDeposit vs).or (last.failure?.map fun s => .call (.transport (.status s)))).map
      fun e => Report.titled p "Deposit stream failed" e.message

end Subscription

/-- Behind these words a limit may stand. It is taken if it fits 64 bits, and without one there is
no limit. -/
structure TakesLimit (words : List String) (sub : Subscription) : Prop where
  absent : parse words = .ok ⟨.to defaultUrl, 0, sub.command none⟩
  given : ∀ n, parse (words ++ ["--limit", Numeral.text n]) =
    if n < UInt64.size then .ok ⟨.to defaultUrl, 0, sub.command (some n)⟩
    else .error (.invalidLiteral .limit (Numeral.text n) (.badCount .tooLarge))

variable {p : Palette} {network : Network} {limit : Option Nat} {c : Cursor} {client : Client}
  {service : Script} {sub : Subscription}

theorem obeys_streamOutcome (hc : c.received = 0) :
    Obeys limit (c.values.map Report.value)
      ((c.last.failure?.map .status).map (Report.transportError p)) (streamOutcome p limit c) := by
  have hcollect := c.collect_eq limit .ok TransportError.status
  rw [hc, Limit.sub_zero, Nat.zero_add, leading_ok, fault_ok, Option.none_or] at hcollect
  rw [streamOutcome, hcollect]
  exact obeys_outcomeOfAll _ _ limit c.values _

theorem obeys_depositsOutcome (hc : c.received = 0) :
    Obeys limit (Subscription.deposits.texts c.values)
      (Subscription.deposits.failure p c.values c.last) (depositsOutcome p limit c) := by
  have hcollect := c.collect_eq limit readDeposit
    fun s => QueryError.call (.transport (.status s))
  rw [hc, Limit.sub_zero, Nat.zero_add] at hcollect
  rw [depositsOutcome]
  show Obeys _ _ _ (outcomeOfAll _ _ (c.collect limit readDeposit _))
  rw [hcollect]
  exact obeys_outcomeOfAll _ _ limit (leading readDeposit c.values) _

/-- Once the stream is open, what a command does depends on its cursor alone. -/
theorem obeys_perform {service' : Script} (hc : c.received = 0)
    (hopen : client.openStream service sub.request = (.ok c, service')) :
    Obeys limit (sub.texts c.values) (sub.failure p c.values c.last)
      (perform p client service (sub.command limit)) := by
  cases sub with
  | values name params headers =>
    have hopen' : client.openStream service ⟨name, params, headers⟩ = (.ok c, service') := hopen
    rw [Subscription.command, perform, hopen']
    exact (obeys_streamOutcome hc).leaving _
  | deposits =>
    have hopen' : client.openDeposits service = (.ok c, service') := by
      rw [Client.openDeposits]
      simp only [show client.openStream service .deposits = _ from hopen]
    rw [Subscription.command, perform, hopen']
    exact (obeys_depositsOutcome hc).leaving _

/-- A stream that opens is fed from the first of the replies. -/
theorem openStream_of_isOk {r : Request} {reply : Reply} {rest : List Reply}
    (hreplies : service.replies = reply :: rest)
    (hopen : (client.openStream service r).1.isOk = true) :
    ∃ service', client.openStream service r = (.ok (.opened r.name reply.incoming), service') := by
  cases hx : (client.exchange service .stream r).1 with
  | error e =>
    rw [Client.openStream_of_error hx] at hopen
    cases hopen
  | ok i =>
    obtain ⟨first, others, hfirst, rfl, -⟩ := Client.exchange_ok hx
    cases hreplies.symm.trans hfirst
    exact ⟨_, Client.openStream_of_ok hx⟩

theorem run_of_parse {words : List String} {i : Invocation} (hparse : parse words = .ok i)
    (hconnect : i.config.connect network = .ok (client, service)) :
    run p network words = perform p client service i.command := by
  rw [run, hparse]
  simp only [hconnect]

theorem run_obeys {config : Config} {reply : Reply} {rest : List Reply} {words : List String}
    {verbosity : Nat} (hconnect : config.connect network = .ok (client, service))
    (hreplies : service.replies = reply :: rest)
    (hopen : (client.openStream service sub.request).1.isOk = true)
    (hparse : parse words = .ok ⟨config, verbosity, sub.command limit⟩) :
    let values := readable reply.incoming.messages
    let last := ending reply.incoming.final reply.incoming.messages
    Obeys limit (sub.texts values) (sub.failure p values last) (run p network words) := by
  obtain ⟨service', hcursor⟩ := openStream_of_isOk hreplies hopen
  rw [run_of_parse hparse hconnect]
  exact obeys_perform rfl hcursor

/-- **Of a stream as much is printed as the limit allows**, and an error that comes behind that is
not met. Here `values` are what the stream has to give and `last` is how it ends, which may be an
element that cannot be read or whose message is too long; for deposits it ends already at the first
value that is none. A larger limit never changes what a smaller one has
printed. Either command takes any limit that fits 64 bits, and no other. -/
theorem limited_stream_obeys (p : Palette) (network : Network) (config : Config)
    (sub : Subscription) (client : Client) (service : Script) (reply : Reply) (rest : List Reply)
    (hconnect : config.connect network = .ok (client, service))
    (hreplies : service.replies = reply :: rest)
    (hopen : (client.openStream service sub.request).1.isOk = true) :
    let values := readable reply.incoming.messages
    let last := ending reply.incoming.final reply.incoming.messages
    (∀ words verbosity limit, parse words = .ok ⟨config, verbosity, sub.command limit⟩ →
      Obeys limit (sub.texts values) (sub.failure p values last) (run p network words)) ∧
    (∀ words words' verbosity verbosity' limit limit',
      parse words = .ok ⟨config, verbosity, sub.command limit⟩ →
      parse words' = .ok ⟨config, verbosity', sub.command limit'⟩ →
      (∀ n, limit' = some n → Limit.isMet limit n = true) →
      (run p network words).output.toList <+: (run p network words').output.toList) ∧
    (∀ name : String, name.toList.head? ≠ some '-' →
      TakesLimit ["stream", name] (.values name [] [])) ∧
    TakesLimit ["deposits"] .deposits := by
  intro values last
  have hobeys (words : List String) (verbosity : Nat) (limit : Option Nat)
      (hparse : parse words = .ok ⟨config, verbosity, sub.command limit⟩) :
      Obeys limit (sub.texts values) (sub.failure p values last) (run p network words) :=
    run_obeys hconnect hreplies hopen hparse
  refine ⟨hobeys, ?_, fun name hname => ⟨parse_stream hname, fun n => parse_stream_limit n hname⟩,
    ⟨rfl, parse_deposits_limit⟩⟩
  intro words words' verbosity verbosity' limit limit' hparse hparse' hle
  exact (hobeys words verbosity limit hparse).output_isPrefix
    (hobeys words' verbosity' limit' hparse') hle

/-- A stream that fails behind its second value, with a limit of two and with one of three. -/
theorem limited_stream_obeys_failing :
    let replies : List Reply := [.elements [.node (.ofValue .nil), .node (.ofValue (.bool true)),
      .status ⟨.internal, "lost"⟩]]
    let network : Network := fun _ => some (.ofReplies replies)
    let sub := Subscription.values "q" [] []
    (Config.to defaultUrl).connect network = .ok (.ready, .ofReplies replies) ∧
    (Client.ready.openStream (.ofReplies replies) sub.request).1.isOk = true ∧
    (run .plain network ["stream", "q", "--limit", Numeral.text 2]).exit = 0 ∧
    (run .plain network ["stream", "q", "--limit", Numeral.text 3]).exit = 1 := by
  intro replies network sub
  have hconnect : (Config.to defaultUrl).connect network = .ok (.ready, .ofReplies replies) := by
    rw [Config.connect, if_neg (by decide +kernel)]
  have hopen : (Client.ready.openStream (.ofReplies replies) sub.request).1.isOk = true := by
    decide +kernel
  have hreadable : readable [(Wire.Node.ofValue .nil).encode,
      (Wire.Node.ofValue (.bool true)).encode] = [.nil, .bool true] := by decide +kernel
  have hending : ending ⟨.internal, "lost"⟩ [(Wire.Node.ofValue .nil).encode,
      (Wire.Node.ofValue (.bool true)).encode] = .failed ⟨.internal, "lost"⟩ := by decide +kernel
  obtain ⟨hobeys, -, hstream, -⟩ := limited_stream_obeys .plain network (.to defaultUrl) sub .ready
    (.ofReplies replies) _ [] hconnect rfl hopen
  simp only [Reply.incoming, Element.messages, Element.final, hreadable, hending] at hobeys
  have htakes := (hstream "q" (by decide)).given
  have htwo := hobeys _ 0 (some 2) ((htakes 2).trans (if_pos (by decide)))
  have hthree := hobeys _ 0 (some 3) ((htakes 3).trans (if_pos (by decide)))
  exact ⟨hconnect, hopen, (htwo.success (.inl rfl)).1, (hthree.failing _ rfl rfl).1⟩

/-- A limit beyond 64 bits is not taken, where without a limit all would be well. An element whose
message is too long is not printed, where its value could be read. -/
theorem beyond_limits :
    let network : Network := fun _ => some (.ofReplies [.elements []])
    let bulky : Network := fun _ => some (.ofReplies [.raw [Value.bulky.encode] .success])
    (run .plain network ["stream", "q"]).exit = 0 ∧
    (run .plain network ["stream", "q", "--limit", Numeral.text UInt64.size]).exit = 2 ∧
    readElement Value.bulky.encode = .ok .bulky ∧
    (run .plain bulky ["stream", "q"]).output = "" ∧
    (run .plain bulky ["stream", "q"]).exit = 1 := by
  intro network bulky
  let sub := Subscription.values "q" [] []
  obtain ⟨hread, hreceive⟩ := receiveElement_bulky
  have hconnect : (Config.to defaultUrl).connect bulky =
      .ok (.ready, .ofReplies [.raw [Value.bulky.encode] .success]) := by
    rw [Config.connect, if_neg (by decide +kernel)]
  have hopen : (Client.ready.openStream (.ofReplies [.raw [Value.bulky.encode] .success])
      sub.request).1.isOk = true := by decide +kernel
  have hparse : parse ["stream", "q"] = .ok ⟨.to defaultUrl, 0, sub.command none⟩ :=
    parse_stream (by decide)
  have hobeys := run_obeys (p := .plain) hconnect rfl hopen hparse
  simp only [Reply.incoming, readable_of_error hreceive, ending_of_error _ hreceive] at hobeys
  exact ⟨by decide +kernel, by decide +kernel, hread, hobeys.output,
    (hobeys.failing _ rfl rfl).1⟩

end CommandLine
end NamedQuery
