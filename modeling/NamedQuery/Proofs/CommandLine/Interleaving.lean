import Mathlib.Data.List.Forall2
import Mathlib.Data.List.TakeWhile
import NamedQuery.Proofs.CommandLine.Occurrence

/-!
# Options in any order

The options of a query can stand in any order around its name, and those that every command knows in
front of the command as well. Only the order of the parameters among themselves counts, and that of
the headers. The reason is that each option changes a part of what was found that no other kind of
option looks at, and that a check that comes late fails no more than one that comes early.

* `Extends`, `Adds`: what options add to what was found before.
* `readLevel_occurrences`: what is read of any number of options.
* `Asks`, `Arrangement`: what options ask for, and how they can be arranged.
* `parse_arrangement`: every arrangement is read alike.
-/

namespace NamedQuery.CommandLine

/-- The texts that are given for an argument, in order. -/
def textsOf (argument : Argument) (os : List Occurrence) : List String :=
  (os.filter fun o => o.argument = argument).map Occurrence.text

/-- The words of options. -/
def wordsOf (os : List Occurrence) : List String := os.flatMap Occurrence.words

/-! ## What is found -/

/-- The values `later` are `earlier` and, behind them, what is read of the texts. -/
def Extends {α : Type} (read : String → Except LiteralError α) (earlier : List α)
    (texts : List String) (later : List α) : Prop :=
  ∃ values, List.Forall₂ (fun text a => read text = .ok a) texts values ∧ later = earlier ++ values

section Extends

variable {α : Type} {read : String → Except LiteralError α} {earlier later : List α} {text : String}
  {texts texts' : List String} {o o' : Option α} {argument : Argument}

theorem Extends.eq_of_nil (h : Extends read earlier [] later) : later = earlier := by
  obtain ⟨values, hread, rfl⟩ := h
  cases hread
  exact List.append_nil earlier

theorem Extends.cons (h : Extends read earlier (text :: texts) later) :
    ∃ a, read text = .ok a ∧ Extends read (earlier ++ [a]) texts later := by
  obtain ⟨values, hread, rfl⟩ := h
  cases hread with
  | @cons _ a _ values hfirst hread =>
    exact ⟨a, hfirst, values, hread, by rw [List.append_assoc]; rfl⟩

/-- One more value of an argument that adds up. -/
theorem more_of_extends (argument : Argument) (h : Extends read earlier (text :: texts) later) :
    ∃ earlier', Given.more argument earlier read text = .ok earlier' ∧
      Extends read earlier' texts later := by
  obtain ⟨a, hread, hrest⟩ := h.cons
  exact ⟨_, by rw [Given.more, hread], hrest⟩

/-- The value of an argument that is given once. -/
theorem once_of_extends (argument : Argument)
    (h : Extends read o.toList (text :: texts) o'.toList) :
    ∃ o'', Given.once argument o read text = .ok o'' ∧ Extends read o''.toList texts o'.toList := by
  obtain ⟨a, hread, hrest⟩ := h.cons
  cases o with
  | none => exact ⟨some a, by rw [Given.once, hread], hrest⟩
  | some b =>
    -- there would be two values
    obtain ⟨values, -, hvalues⟩ := hrest
    cases o' with
    | none => cases hvalues
    | some c => cases hvalues

end Extends

/-- What was found is `g'` when the options are found on top of `g`. -/
structure Adds (g : Given) (os : List Occurrence) (g' : Given) : Prop where
  url : Extends .ok g.url.toList (textsOf .url os) g'.url.toList
  timeout : Extends readSeconds g.timeout.toList (textsOf .timeout os) g'.timeout.toList
  connectTimeout : Extends readSeconds g.connectTimeout.toList (textsOf .connectTimeout os)
    g'.connectTimeout.toList
  params : Extends readParam g.params (textsOf .param os) g'.params
  headers : Extends readHeader g.headers (textsOf .header os) g'.headers
  limit : Extends readCount g.limit.toList (textsOf .limit os) g'.limit.toList
  others : g' = { g with
    url := g'.url, timeout := g'.timeout, connectTimeout := g'.connectTimeout,
    params := g'.params, headers := g'.headers, limit := g'.limit }

variable {l : Level} {s : State} {g g' : Given} {places : List Argument} {o : Occurrence}
  {w : String} {os os' : List Occurrence}

theorem Adds.eq_of_nil (h : Adds g [] g') : g' = g := by
  have htoList {α : Type} {o o' : Option α} (h : o'.toList = o.toList) : o' = o := by
    cases o <;> cases o' <;> simp_all
  rw [h.others, htoList h.url.eq_of_nil, htoList h.timeout.eq_of_nil,
    htoList h.connectTimeout.eq_of_nil, h.params.eq_of_nil, h.headers.eq_of_nil,
    htoList h.limit.eq_of_nil]

/-- The first of the options adds its part, and the others find it there. -/
theorem Adds.cons (h : Adds g (o :: os) g') :
    ∃ g₁, g.add o.argument o.text = .ok g₁ ∧ Adds g₁ os g' := by
  obtain ⟨argument, text, words, hwritten⟩ := o
  cases argument with
  | url =>
    have hurl : Extends .ok g.url.toList (text :: textsOf .url os) g'.url.toList := h.url
    obtain ⟨url, hadd, hrest⟩ := once_of_extends .url hurl
    exact ⟨{ g with url }, by simp only [Given.add, hadd]; rfl, { h with url := hrest }⟩
  | timeout =>
    have htimeout : Extends readSeconds g.timeout.toList (text :: textsOf .timeout os)
      g'.timeout.toList := h.timeout
    obtain ⟨timeout, hadd, hrest⟩ := once_of_extends .timeout htimeout
    exact ⟨{ g with timeout }, by simp only [Given.add, hadd]; rfl, { h with timeout := hrest }⟩
  | connectTimeout =>
    have htimeout : Extends readSeconds g.connectTimeout.toList
      (text :: textsOf .connectTimeout os) g'.connectTimeout.toList := h.connectTimeout
    obtain ⟨connectTimeout, hadd, hrest⟩ := once_of_extends .connectTimeout htimeout
    exact ⟨{ g with connectTimeout }, by simp only [Given.add, hadd]; rfl,
      { h with connectTimeout := hrest }⟩
  | limit =>
    have hlimit : Extends readCount g.limit.toList (text :: textsOf .limit os) g'.limit.toList :=
      h.limit
    obtain ⟨limit, hadd, hrest⟩ := once_of_extends .limit hlimit
    exact ⟨{ g with limit }, by simp only [Given.add, hadd]; rfl, { h with limit := hrest }⟩
  | param =>
    have hparams : Extends readParam g.params (text :: textsOf .param os) g'.params := h.params
    obtain ⟨params, hadd, hrest⟩ := more_of_extends .param hparams
    exact ⟨{ g with params }, by simp only [Given.add, hadd]; rfl, { h with params := hrest }⟩
  | header =>
    have hheaders : Extends readHeader g.headers (text :: textsOf .header os) g'.headers :=
      h.headers
    obtain ⟨headers, hadd, hrest⟩ := more_of_extends .header hheaders
    exact ⟨{ g with headers }, by simp only [Given.add, hadd]; rfl, { h with headers := hrest }⟩
  | _ => exact absurd rfl (longName?_ne_none hwritten)

/-! ## What is read -/

/-- **Options are read one by one**, up to whatever stands behind them. -/
theorem readLevel_occurrences (hl : ∀ o ∈ os, l.Knows o.argument) (hadds : Adds g (os ++ os') g')
    (hs : s.settle = .ok ⟨g, none, places, false⟩) :
    ∃ s' g₁, (∀ ws, readLevel l s (wordsOf os ++ ws) = readLevel l s' ws) ∧
      s'.settle = .ok ⟨g₁, none, places, false⟩ ∧ Adds g₁ os' g' := by
  induction os generalizing s g with
  | nil => exact ⟨s, g, fun ws => rfl, hs, hadds⟩
  | cons o os ih =>
    rw [List.forall_mem_cons] at hl
    obtain ⟨g₁, hadd, hrest⟩ := Adds.cons hadds
    obtain ⟨s₁, hread, hs₁⟩ := readLevel_occurrence o hl.1 hs hadd
    obtain ⟨s', g₂, hothers, hs', hbehind⟩ := ih hl.2 hrest hs₁
    refine ⟨s', g₂, fun ws => ?_, hs', hbehind⟩
    rw [wordsOf, List.flatMap_cons, List.append_assoc, hread]
    exact hothers ws

/-! ## Headers -/

/-- The text of a header has a colon. What stands before the first one and what stands behind it are
the key and the value, apart from blanks at their ends. -/
def IsHeader (text : String) (h : Header) : Prop :=
  ∃ key value, text.toList = key ++ ':' :: value ∧ ':' ∉ key ∧
    h = ⟨String.ofList (Text.trim key), String.ofList (Text.trim value)⟩

theorem readHeader_eq_ok_iff {text : String} {h : Header} :
    readHeader text = .ok h ↔ IsHeader text h := by
  constructor
  · intro hread
    rw [readHeader, List.span_eq_takeWhile_dropWhile] at hread
    split at hread
    · cases hread
    · rename_i key c value hspan
      obtain ⟨hkey, hvalue⟩ := Prod.mk.inj hspan
      have hcolon : c = ':' := by
        have hfirst := List.head?_dropWhile_not (· != ':') text.toList
        rw [hvalue] at hfirst
        simpa using hfirst
      refine ⟨key, value, ?_, ?_, (Except.ok.inj hread).symm⟩
      · rw [← hcolon, ← hkey, ← hvalue, List.takeWhile_append_dropWhile]
      · intro hmem
        rw [← hkey] at hmem
        simpa using List.mem_takeWhile_imp hmem
  · rintro ⟨key, value, htext, hkey, rfl⟩
    rw [readHeader, htext, span_separator (':' :: value) hkey (by simp)]

/-! ## Arrangements -/

/-- What the options of a query come to. -/
structure Options where
  params : List Value
  headers : List Header
  url : Option String
  timeout : Option Nat
  connectTimeout : Option Nat
  limit : Option Nat

/-- The connection that is asked for. -/
def Options.config (q : Options) : Config :=
  ⟨q.url.getD defaultUrl, q.connectTimeout, q.timeout⟩

/-- The options ask for the values of `q`. Parameters and headers are in order, and nothing else is
given twice. -/
structure Asks (os : List Occurrence) (q : Options) : Prop where
  params : List.Forall₂ (fun text v => readParam text = .ok v) (textsOf .param os) q.params
  headers : List.Forall₂ IsHeader (textsOf .header os) q.headers
  url : textsOf .url os = q.url.toList
  timeout : List.Forall₂ (fun text n => readSeconds text = .ok n) (textsOf .timeout os)
    q.timeout.toList
  connectTimeout : List.Forall₂ (fun text n => readSeconds text = .ok n)
    (textsOf .connectTimeout os) q.connectTimeout.toList
  limit : List.Forall₂ (fun text n => readCount text = .ok n) (textsOf .limit os) q.limit.toList

/-- The options that every command knows. -/
def Argument.common : List Argument := [.url, .timeout, .connectTimeout]

/-- Options around a command and a name. Options that every command knows may stand before the
command; parameters are in order, and so are headers. -/
structure Arrangement (os : List Occurrence) where
  before : List Occurrence
  front : List Occurrence
  back : List Occurrence
  perm : (before ++ (front ++ back)).Perm os
  params : textsOf .param (before ++ (front ++ back)) = textsOf .param os
  headers : textsOf .header (before ++ (front ++ back)) = textsOf .header os
  common : ∀ o ∈ before, o.argument ∈ Argument.common

/-- The words of an arrangement. -/
def Arrangement.words (r : Arrangement os) (c : CommandName) (name : String) : List String :=
  wordsOf r.before ++ c.word :: (wordsOf r.front ++ name :: wordsOf r.back)

variable {q : Options} {c : CommandName} {name : String} {argument : Argument}

theorem textsOf_append (argument : Argument) (os os' : List Occurrence) :
    textsOf argument (os ++ os') = textsOf argument os ++ textsOf argument os' := by
  rw [textsOf, List.filter_append, List.map_append]
  rfl

/-- The order of the options makes no difference to what is given once. -/
theorem textsOf_eq_of_perm {α : Type} {R : String → α → Prop} {o : Option α} {argument : Argument}
    (hperm : os'.Perm os) (h : List.Forall₂ R (textsOf argument os) o.toList) :
    textsOf argument os' = textsOf argument os := by
  have htexts : (textsOf argument os').Perm (textsOf argument os) :=
    (hperm.filter _).map Occurrence.text
  have hlength : (textsOf argument os).length ≤ 1 := by
    rw [h.length_eq]
    exact Option.length_toList_le
  match hos : textsOf argument os, hlength with
  | [], _ => rw [hos] at htexts; exact htexts.eq_nil
  | [text], _ => rw [hos] at htexts; exact htexts.eq_singleton

/-- Options ask for the same in every arrangement. -/
theorem Asks.arranged (hasks : Asks os q) (r : Arrangement os) :
    Asks (r.before ++ (r.front ++ r.back)) q := by
  have hurl : List.Forall₂ Eq (textsOf .url os) q.url.toList := List.forall₂_eq_eq_eq ▸ hasks.url
  constructor
  · rw [r.params]
    exact hasks.params
  · rw [r.headers]
    exact hasks.headers
  · rw [textsOf_eq_of_perm r.perm hurl]
    exact hasks.url
  · rw [textsOf_eq_of_perm r.perm hasks.timeout]
    exact hasks.timeout
  · rw [textsOf_eq_of_perm r.perm hasks.connectTimeout]
    exact hasks.connectTimeout
  · rw [textsOf_eq_of_perm r.perm hasks.limit]
    exact hasks.limit

/-! ## In front of the command, and behind it -/

/-- What is given once stands on one side. -/
theorem exists_sides {α : Type} {R : String → α → Prop} {texts texts' : List String} {o : Option α}
    (h : List.Forall₂ R (texts ++ texts') o.toList) :
    ∃ before behind : Option α, List.Forall₂ R texts before.toList ∧
      List.Forall₂ R texts' behind.toList ∧ (behind <|> before) = o := by
  cases texts with
  | nil => exact ⟨none, o, .nil, h, by cases o <;> rfl⟩
  | cons text texts =>
    cases o with
    | none => cases h
    | some a =>
      obtain ⟨hfirst, hothers⟩ := List.forall₂_cons.mp h
      obtain ⟨rfl, rfl⟩ := List.append_eq_nil_iff.mp (List.forall₂_nil_right_iff.mp hothers)
      exact ⟨some a, none, .cons hfirst .nil, .nil, rfl⟩

theorem textsOf_of_common (hcommon : ∀ o ∈ os, o.argument ∈ Argument.common)
    (hargument : argument ∉ Argument.common) : textsOf argument os = [] := by
  rw [textsOf, List.map_eq_nil_iff, List.filter_eq_nil_iff]
  intro o ho
  rw [decide_eq_true_iff]
  rintro rfl
  exact hargument (hcommon o ho)

theorem textsOf_behind (os' : List Occurrence) (hcommon : ∀ o ∈ os, o.argument ∈ Argument.common)
    (hargument : argument ∉ Argument.common) :
    textsOf argument (os ++ os') = textsOf argument os' := by
  rw [textsOf_append, textsOf_of_common hcommon hargument, List.nil_append]

/-- Options in front of the command, and the others behind it: what is found of the first, and of
the others, and that it comes to what is asked for. -/
theorem Asks.sides (hasks : Asks (os ++ os') q)
    (hcommon : ∀ o ∈ os, o.argument ∈ Argument.common) :
    ∃ before behind, Adds .empty os before ∧ Adds .empty os' behind ∧
      Given.config before behind = q.config ∧ Given.verbosityOf before behind = 0 ∧
      behind.params = q.params ∧ behind.headers = q.headers ∧ behind.limit = q.limit ∧
      behind.name = none := by
  have hurl : List.Forall₂ (fun text url => (Except.ok text : Except LiteralError String) = .ok url)
      (textsOf .url os ++ textsOf .url os') q.url.toList := by
    rw [← textsOf_append, hasks.url, List.forall₂_same]
    intro url _
    rfl
  have htimeout := hasks.timeout
  have hconnectTimeout := hasks.connectTimeout
  rw [textsOf_append] at htimeout hconnectTimeout
  obtain ⟨url, url', hurl, hurl', hurls⟩ := exists_sides hurl
  obtain ⟨timeout, timeout', htimeout, htimeout', htimeouts⟩ := exists_sides htimeout
  obtain ⟨connectTimeout, connectTimeout', hconnectTimeout, hconnectTimeout', hconnectTimeouts⟩ :=
    exists_sides hconnectTimeout
  have hbefore : Adds .empty os { Given.empty with url, timeout, connectTimeout } := by
    refine ⟨⟨_, hurl, rfl⟩, ⟨_, htimeout, rfl⟩, ⟨_, hconnectTimeout, rfl⟩, ⟨[], ?_, rfl⟩,
      ⟨[], ?_, rfl⟩, ⟨[], ?_, rfl⟩, rfl⟩
    all_goals
      rw [textsOf_of_common hcommon (by decide)]
      exact .nil
  have hbehind : Adds .empty os'
      { Given.empty with
        url := url', timeout := timeout', connectTimeout := connectTimeout',
        params := q.params, headers := q.headers, limit := q.limit } := by
    refine ⟨⟨_, hurl', rfl⟩, ⟨_, htimeout', rfl⟩, ⟨_, hconnectTimeout', rfl⟩, ⟨q.params, ?_, rfl⟩,
      ⟨q.headers, ?_, rfl⟩, ⟨q.limit.toList, ?_, rfl⟩, rfl⟩
    · rw [← textsOf_behind os' hcommon (by decide)]
      exact hasks.params
    · rw [← textsOf_behind os' hcommon (by decide)]
      exact hasks.headers.imp fun _ _ => readHeader_eq_ok_iff.mpr
    · rw [← textsOf_behind os' hcommon (by decide)]
      exact hasks.limit
  refine ⟨_, _, hbefore, hbehind, ?_, rfl, rfl, rfl, rfl, rfl⟩
  rw [Given.config, Options.config, ← hurls, ← htimeouts, ← hconnectTimeouts]

/-! ## Levels -/

theorem knows_root (h : argument ∈ Argument.common) : Level.root.Knows argument := by
  have hcommon : argument = .url ∨ argument = .timeout ∨ argument = .connectTimeout := by
    simpa [Argument.common] using h
  rcases hcommon with rfl | rfl | rfl
  all_goals exact ⟨by rintro _ ⟨⟩; rfl, by rintro _ ⟨⟩⟩

theorem knows_stream (h : argument.longName? ≠ none) :
    (Level.ofCommand .stream).Knows argument := by
  cases argument with
  | param | header => exact ⟨by rintro _ ⟨⟩; rfl, by rintro _ ⟨⟩; rfl⟩
  | url | timeout | connectTimeout | limit => exact ⟨by rintro _ ⟨⟩; rfl, by rintro _ ⟨⟩⟩
  | _ => exact absurd rfl h

/-- Only a sequence is limited. -/
theorem knows_call (h : argument.longName? ≠ none) (hlimit : argument ≠ .limit) :
    (Level.ofCommand .call).Knows argument := by
  cases argument with
  | param | header => exact ⟨by rintro _ ⟨⟩; rfl, by rintro _ ⟨⟩; rfl⟩
  | url | timeout | connectTimeout => exact ⟨by rintro _ ⟨⟩; rfl, by rintro _ ⟨⟩⟩
  | limit => exact absurd rfl hlimit
  | _ => exact absurd rfl h

/-- The options in front of the command, and the command. -/
theorem parse_behind {rest : List String} {command : Command} {before behind : Given}
    (hcommon : ∀ o ∈ os, o.argument ∈ Argument.common) (hadds : Adds .empty os before)
    (hrest : readCommand c rest = .ok (behind, command)) :
    parse (wordsOf os ++ c.word :: rest) =
      .ok ⟨Given.config before behind, Given.verbosityOf before behind, command⟩ := by
  rw [← List.append_nil os] at hadds
  obtain ⟨s, g, hread, hs, hnil⟩ := readLevel_occurrences (l := .root) (s := .start .root)
    (fun o ho => knows_root (hcommon o ho)) hadds rfl
  obtain rfl := hnil.eq_of_nil
  obtain ⟨-, hvalues, hwaiting⟩ := of_settle hs
  have hcommand : isCommandWord c.word = true ∧ CommandName.ofWord? c.word = some c := by
    cases c <;> decide
  have hroot : readLevel .root (.start .root) (wordsOf os ++ c.word :: rest) =
      .ok (s, some (c, rest)) := by
    rw [hread, readLevel, hvalues, hwaiting, hcommand.1, hcommand.2]
    rfl
  rw [parse, hroot]
  show (readCommand c rest).bind _ = _
  rw [hrest]
  show s.settle.bind _ = _
  rw [hs]
  rfl

/-- A name can be found next to whatever options are found. -/
theorem Adds.named (h : Adds g os g') (name : Option String) :
    Adds { g with name } os { g' with name } := by
  refine { h with others := ?_ }
  rw [h.others]

theorem word_of_plain (hvalues : s.valuesOnly = false) (hwaiting : s.isWaiting = false)
    (hw : w.toList.head? ≠ some '-') : s.word l w = s.value l w := by
  simp only [State.word, hvalues, Word.of_plain hw]
  rw [if_neg Bool.false_ne_true]
  split
  · rename_i hpending
    rw [State.isWaiting, hpending] at hwaiting
    cases hwaiting
  · rfl

/-- A name among options. -/
theorem readLevel_named {found : Given} (hl : l.hasCommands = false) (hplaces : l.places = [.name])
    (hname : name.toList.head? ≠ some '-') (hknows : ∀ o ∈ os ++ os', l.Knows o.argument)
    (hadds : Adds .empty (os ++ os') found) (hnone : found.name = none) :
    ∃ s, readLevel l (.start l) (wordsOf os ++ name :: wordsOf os') = .ok (s, none) ∧
      s.settle = .ok ⟨{ found with name := some name }, none, [], false⟩ := by
  have hstart : (State.start l).settle = .ok ⟨.empty, none, [.name], false⟩ := by
    rw [State.start, hplaces]
    rfl
  rw [List.forall_mem_append] at hknows
  obtain ⟨s, g, hread, hs, hbehind⟩ := readLevel_occurrences hknows.1 hadds hstart
  obtain ⟨hplace, hvalues, hwaiting⟩ := of_settle hs
  have hgiven : g.name = none := by
    have hothers := congrArg Given.name hbehind.others
    exact hothers.symm.trans hnone
  have hword : s.word l name = .ok ⟨g, some ⟨.name, some name⟩, [], false⟩ := by
    rw [word_of_plain hvalues hwaiting hname, State.value, hplace]
    simp only [State.expect, hs]
    rfl
  have hsettled : State.settle ⟨g, some ⟨.name, some name⟩, [], false⟩ =
      .ok ⟨{ g with name := some name }, none, [], false⟩ := by
    apply settle_pending
    simp only [Given.add, hgiven]
    rfl
  have hrest := hbehind.named (some name)
  rw [← List.append_nil os'] at hrest
  obtain ⟨s', g', hread', hs', hnil⟩ := readLevel_occurrences hknows.2 hrest hsettled
  obtain rfl := hnil.eq_of_nil
  refine ⟨s', ?_, hs'⟩
  rw [hread, readLevel_cons hl hword, ← List.append_nil (wordsOf os'), hread', readLevel]

/-! ## Command lines -/

/-- A command that takes a name and knows the options behind it, with whatever it makes of them. -/
theorem parse_sides (r : Arrangement os) {before behind : Given} {command : Command}
    (hname : name.toList.head? ≠ some '-') (hcommands : (Level.ofCommand c).hasCommands = false)
    (hplaces : (Level.ofCommand c).places = [.name])
    (hknows : ∀ o ∈ r.front ++ r.back, (Level.ofCommand c).Knows o.argument)
    (hbefore : Adds .empty r.before before) (hbehind : Adds .empty (r.front ++ r.back) behind)
    (hnone : behind.name = none)
    (hcommand : ({ behind with name := some name } : Given).command c = .ok command) :
    parse (r.words c name) =
      .ok ⟨Given.config before behind, Given.verbosityOf before behind, command⟩ := by
  obtain ⟨s, hread, hs⟩ := readLevel_named hcommands hplaces hname hknows hbehind hnone
  have hrest : readCommand c (wordsOf r.front ++ name :: wordsOf r.back) =
      .ok ({ behind with name := some name }, command) := by
    rw [readCommand_of_level hread, hs]
    show (Given.command _ c).bind _ = _
    rw [hcommand]
    rfl
  have hparse := parse_behind r.common hbefore hrest
  exact hparse

/-- **Every arrangement of the options is read alike**: what is asked for is found, and nothing else
is. -/
theorem parse_arrangement (hasks : Asks os q) (hname : name.toList.head? ≠ some '-')
    (r : Arrangement os) :
    (q.limit = none → parse (r.words .call name) =
      .ok ⟨q.config, 0, .call name q.params q.headers⟩) ∧
    parse (r.words .stream name) =
      .ok ⟨q.config, 0, .stream name q.params q.headers q.limit⟩ := by
  obtain ⟨before, behind, hbefore, hbehind, hconfig, hverbosity, hparams, hheaders, hlimit, hnone⟩ :=
    (hasks.arranged r).sides r.common
  rw [← hconfig, ← hverbosity, ← hparams, ← hheaders]
  constructor
  · intro hunlimited
    refine parse_sides r hname rfl rfl (fun o ho => ?_) hbefore hbehind hnone rfl
    refine knows_call (longName?_ne_none o.written) fun hargument => ?_
    -- there would be a text for the limit
    have htexts := (hasks.arranged r).limit
    rw [hunlimited] at htexts
    have hmem : o.text ∈ textsOf .limit (r.before ++ (r.front ++ r.back)) :=
      List.mem_map_of_mem (List.mem_filter.mpr
        ⟨List.mem_append_right _ ho, decide_eq_true hargument⟩)
    rw [List.forall₂_nil_right_iff.mp htexts] at hmem
    cases hmem
  · rw [← hlimit]
    refine parse_sides r hname rfl rfl (fun o ho => ?_) hbefore hbehind hnone rfl
    exact knows_stream (longName?_ne_none o.written)

/-- Options in one of their orders. -/
def mixedOptions : List Occurrence :=
  [⟨.param, "7", _, .attached (c := 'p') rfl (by decide) (by decide)⟩,
   ⟨.url, "http://a", _, .longJoined rfl⟩,
   ⟨.header, "x: y:z", _, .short (c := 'H') rfl (by decide)⟩,
   ⟨.param, "0x01", _, .long rfl (by decide)⟩,
   ⟨.timeout, "5", _, .long rfl (by decide)⟩]

/-- The same options in another order, one of them in front of the command. -/
def mixedArrangement : Arrangement mixedOptions where
  before := [⟨.timeout, "5", _, .long rfl (by decide)⟩]
  front := [⟨.header, "x: y:z", _, .short (c := 'H') rfl (by decide)⟩,
    ⟨.param, "7", _, .attached (c := 'p') rfl (by decide) (by decide)⟩]
  back := [⟨.param, "0x01", _, .long rfl (by decide)⟩, ⟨.url, "http://a", _, .longJoined rfl⟩]
  perm := by decide
  params := rfl
  headers := rfl
  common := by decide

/-- A limit in front of the name. -/
def limitedArrangement : Arrangement [⟨.limit, "2", _, .longJoined rfl⟩] where
  before := []
  front := [⟨.limit, "2", _, .longJoined rfl⟩]
  back := []
  perm := .refl _
  params := rfl
  headers := rfl
  common := by decide

theorem parse_arrangement_mixed :
    parse ["--timeout", "5", "call", "-H", "x: y:z", "-p7", "q", "--param", "0x01",
        "--url=http://a"] =
      .ok ⟨⟨"http://a", none, some 5⟩, 0, .call "q" [.uint64 7, .bytes [1]] [⟨"x", "y:z"⟩]⟩ ∧
    parse ["stream", "--limit=2", "q"] =
      .ok ⟨⟨defaultUrl, none, none⟩, 0, .stream "q" [] [] (some 2)⟩ := by
  have hmixed : Asks mixedOptions
      ⟨[.uint64 7, .bytes [1]], [⟨"x", "y:z"⟩], some "http://a", some 5, none, none⟩ := by
    constructor
    · exact .cons rfl (.cons rfl .nil)
    · exact .cons (readHeader_eq_ok_iff.mp rfl) .nil
    · rfl
    · exact .cons rfl .nil
    · exact .nil
    · exact .nil
  have hlimited : Asks [⟨.limit, "2", _, .longJoined rfl⟩] ⟨[], [], none, none, none, some 2⟩ :=
    ⟨.nil, .nil, rfl, .nil, .nil, .cons rfl .nil⟩
  exact ⟨(parse_arrangement hmixed (by decide) mixedArrangement).1 rfl,
    (parse_arrangement hlimited (by decide) limitedArrangement).2⟩

end NamedQuery.CommandLine
