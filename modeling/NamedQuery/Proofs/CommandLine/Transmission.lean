import NamedQuery.Proofs.Client.Answer
import NamedQuery.Proofs.CommandLine.Limit
import NamedQuery.Proofs.CommandLine.Params

/-!
# Calls from the command line

A call on the command line sends the values that its parameters are texts for, in order and in one
request, and prints the value that comes back. A message that is too long is refused, be it that of
the request or that of the value.

* `perform_call_of_plain`: what a call does once its command line is read.
* `call_transmits_params`: from the words of the command line to the request and the output.
* `long_reply_not_printed`: a value that comes back need not be printed.
-/

namespace NamedQuery.CommandLine

variable {p : Palette} {client : Client} {service : Script} {reply : Reply} {rest : List Reply}
  {name : String} {params : List Value}

theorem service_outcomeOf {ε α : Type} (failed : ε → String) (shown : α → String)
    (result : Except ε α × Script) : (outcomeOf failed shown result).service = some result.2 := by
  obtain ⟨answer, service⟩ := result
  cases answer <;> rfl

/-- Nothing that can be written as a parameter has anything below it. -/
theorem depth_of_kind {v : Value} (h : v.kind = .bytes ∨ v.kind = .uint64) : v.depth = 0 := by
  cases v with
  | bytes | uint64 => simp [Value.depth]
  | _ => rcases h with h | h <;> cases h

/-- What is printed of a reply: a value, unless it is too long, and nothing of a failure. -/
structure Prints (reply : Reply) (o : Outcome) : Prop where
  value : ∀ v, reply = .node (.ofValue v) → v.depth ≤ 100 → v.encode.length ≤ Message.maxBytes →
    o.output = Report.value v ++ "\n" ∧ o.exit = 0
  longValue : ∀ v, reply = .node (.ofValue v) → Message.maxBytes < v.encode.length →
    o.output = "" ∧ o.exit = 1
  status : ∀ status, reply = .status status → status.isOk = false → o.output = "" ∧ o.exit = 1

/-- What a call is to the service, and what is printed. A request whose message is too long is
nothing to the service; of any other there is one more in the log, and one reply less. -/
structure Transmits (service : Script) (reply : Reply) (rest : List Reply) (name : String)
    (params : List Value) (o : Outcome) : Prop where
  long : Message.maxBytes < (Request.mk name params []).envelope.encode.length →
    o.service = some service ∧ o.output = "" ∧ o.exit = 1
  received : (Request.mk name params []).envelope.encode.length ≤ Message.maxBytes →
    o.service = some ⟨rest, service.log ++ [⟨.call, name, params.map Wire.Node.ofValue, []⟩]⟩ ∧
      Prints reply o

theorem perform_call_of_plain (hready : client.unready = none)
    (hplain : (Request.mk name params []).Plain) (hreplies : service.replies = reply :: rest) :
    Transmits service reply rest name params (perform p client service (.call name params [])) := by
  rw [perform]
  constructor
  · intro hlong
    rw [Client.call_of_long hready hplain hlong]
    exact ⟨rfl, rfl, rfl⟩
  · intro hsize
    refine ⟨?_, ?_, ?_, ?_⟩
    · rw [service_outcomeOf, Client.call_snd,
        Client.exchange_of_plain hready hplain hsize hreplies]
      rfl
    · rintro v rfl hdepth hvalue
      rw [Client.call_of_value hready hplain hsize hreplies hdepth hvalue]
      exact ⟨rfl, rfl⟩
    · rintro v rfl hvalue
      rw [Client.call_of_long_value hready hplain hsize hreplies hvalue]
      exact ⟨rfl, rfl⟩
    · rintro status rfl hstatus
      rw [Client.call_of_status hready hplain hsize hreplies hstatus]
      exact ⟨rfl, rfl⟩

theorem connect_default {network : Network} (h : network defaultUrl = some service) :
    (Config.to defaultUrl).connect network = .ok (.ready, service) := by
  have hurl : network (Config.to defaultUrl).url = some service := h
  rw [Config.connect, if_neg (by decide +kernel), hurl]

/-- **A call transmits what its words say.** The values are byte strings and numbers. They can be
written as they are shown to people, or each in any other way that there is. The service receives
one request, with the name and the values in their order, and nothing else. A value that it replies
is printed as a document; if it fails, nothing is printed and the exit code tells so. So it is with
a message that is too long; if it is that of the request, the service receives nothing. -/
theorem call_transmits_params (p : Palette) (network : Network) (service : Script) (reply : Reply)
    (rest : List Reply) (name : String) (params : List Value)
    (hname : Text.isBlankText name.toList = false) (hswitch : name.toList.head? ≠ some '-')
    (hkinds : ∀ v ∈ params, v.kind = .bytes ∨ v.kind = .uint64)
    (hnetwork : network defaultUrl = some service) (hreplies : service.replies = reply :: rest) :
    let outcome (texts : List String) : Outcome :=
      run p network ("call" :: name :: texts.flatMap fun text => ["-p", text])
    Transmits service reply rest name params (outcome (params.map Value.text)) ∧
    ∀ texts, List.Forall₂ Spells texts params →
      Transmits service reply rest name params (outcome texts) := by
  intro outcome
  have hplain : (Request.mk name params []).Plain := by
    apply Request.plain_of_flat hname
    intro v hv
    exact depth_of_kind (hkinds v hv)
  have htransmits (texts : List String) (hspells : List.Forall₂ Spells texts params) :
      Transmits service reply rest name params (outcome texts) := by
    show Transmits _ _ _ _ _ (run p network ("call" :: name :: paramWords texts))
    rw [run_of_parse (parse_call_params hswitch hspells) (connect_default hnetwork)]
    exact perform_call_of_plain rfl hplain hreplies
  exact ⟨htransmits _ (spells_texts hkinds), htransmits⟩

/-- One parameter in each of the forms, and a reply that is a list. -/
theorem call_transmits_params_forms :
    let service : Script := .ofReplies [.node (.ofValue (.list [.nil, .bytes []]))]
    let params : List Value := [.bytes [0, 255], .uint64 18446744073709551615, .bytes [171],
      .bytes [171], .uint64 7]
    let texts := ["0x00ff", "18446744073709551615", "bytes:0xab", "bytes:ab", "u64:7"]
    let o := run .plain (fun _ => some service)
      ("call" :: "q" :: texts.flatMap fun text => ["-p", text])
    Text.isBlankText "q".toList = false ∧ "q".toList.head? ≠ some '-' ∧
    (∀ v ∈ params, v.kind = .bytes ∨ v.kind = .uint64) ∧ List.Forall₂ Spells texts params ∧
    (Request.mk "q" params []).envelope.encode.length ≤ Message.maxBytes ∧
    o.service = some ⟨[], [⟨.call, "q", params.map Wire.Node.ofValue, []⟩]⟩ ∧
    o.output = "[\n  null,\n  \"0x\"\n]\n" ∧ o.exit = 0 := by
  intro service params texts o
  have hkinds : ∀ v ∈ params, v.kind = .bytes ∨ v.kind = .uint64 := by decide
  have htexts : texts = [(Value.bytes [0, 255]).text, (Value.uint64 18446744073709551615).text,
      "bytes:" ++ (Value.bytes [171]).text, "bytes:" ++ String.ofList (Hex.writeDigits [171]),
      "u64:" ++ (Value.uint64 7).text] := by decide +kernel
  have hspells : List.Forall₂ Spells texts params := by
    rw [htexts]
    exact .cons (.bytes _) (.cons (.number _) (.cons (.namedBytes _) (.cons (.bareBytes _)
      (.cons (.namedNumber _) .nil))))
  have hsize : (Request.mk "q" params []).envelope.encode.length ≤ Message.maxBytes := by
    decide +kernel
  obtain ⟨-, htransmits⟩ := call_transmits_params .plain (fun _ => some service) service _ [] "q"
    params (by decide) (by decide) hkinds rfl rfl
  obtain ⟨hservice, hprints⟩ := (htransmits texts hspells).received hsize
  obtain ⟨houtput, hexit⟩ :=
    hprints.value (.list [.nil, .bytes []]) rfl (by decide) (by decide +kernel)
  refine ⟨by decide, by decide, hkinds, hspells, hsize, hservice, ?_, hexit⟩
  rw [houtput]
  decide +kernel

/-- A value whose message is too long is not printed, however flat it is. -/
theorem long_reply_not_printed :
    let service : Script := .ofReplies [.node (.ofValue .bulky)]
    let o := run .plain (fun _ => some service) ["call", "q"]
    Value.bulky.depth ≤ 100 ∧ o.output ≠ Report.value .bulky ++ "\n" ∧ o.output = "" ∧
      o.exit = 1 := by
  intro service o
  have hrun : o = perform .plain .ready service (.call "q" [] []) :=
    run_of_parse (parse_call_params (by decide) .nil) (connect_default rfl)
  have hplain : (Request.mk "q" [] []).Plain :=
    Request.plain_of_flat (by decide) fun _ hv => absurd hv List.not_mem_nil
  have hsent : Transmits service _ [] "q" [] o := hrun ▸ perform_call_of_plain rfl hplain rfl
  obtain ⟨-, hprints⟩ := hsent.received (by decide +kernel)
  obtain ⟨houtput, hexit⟩ := hprints.longValue .bulky rfl Value.maxBytes_lt_length_encode_bulky
  refine ⟨?_, ?_, houtput, hexit⟩
  · rw [Value.depth_bulky]
    decide
  · -- what is printed of a value ends with the end of a line
    rw [houtput]
    generalize Report.value .bulky = text
    intro hempty
    have hlist := congrArg String.toList hempty
    rw [String.toList_append] at hlist
    exact List.append_ne_nil_of_right_ne_nil _ (List.cons_ne_nil _ _) hlist.symm

end NamedQuery.CommandLine
