import Mathlib.Data.List.Infix

/-!
# Decoders that are fed one symbol after the other

A decoder answers a symbol with its next state, and sometimes with a message.  What it makes of a
stream does not depend on how the stream is cut: its messages are those of the first part, and those
of the second part from the state behind the first one (`messages_append`).  So a decoder that was
fed a prefix has returned a prefix of the messages (`messages_prefix`).  `Decodes` composes part by
part (`Decodes.append`).

`Traces` is the rule for what a message says about the stream: a fact about the state and the
symbols fed so far that every symbol keeps. -/

namespace StreamDecoder

variable {σ β ω : Type}

/-- The state behind a stream. -/
def after (feed : σ → β → σ × Option ω) : σ → List β → σ
  | s, [] => s
  | s, symbol :: symbols => after feed (feed s symbol).1 symbols

/-- The messages of a stream. -/
def messages (feed : σ → β → σ × Option ω) : σ → List β → List ω
  | _, [] => []
  | s, symbol :: symbols => (feed s symbol).2.toList ++ messages feed (feed s symbol).1 symbols

/-- What a decoder makes of a stream: the state behind it, and the messages. -/
structure Decodes (feed : σ → β → σ × Option ω) (s : σ) (symbols : List β) (s' : σ) (ms : List ω) :
    Prop where
  after_eq : after feed s symbols = s'
  messages_eq : messages feed s symbols = ms

/-- A fact about the state and the symbols fed so far that every symbol keeps, and what it says
about the symbols that a message comes with. -/
structure Traces (feed : σ → β → σ × Option ω) (I : σ → List β → Prop) (P : ω → List β → Prop) :
    Prop where
  next : ∀ {s fed} symbol, I s fed → I (feed s symbol).1 (fed ++ [symbol])
  message : ∀ {s fed} symbol {m}, I s fed → (feed s symbol).2 = some m → P m (fed ++ [symbol])

variable {feed : σ → β → σ × Option ω}

@[simp] lemma after_nil (s : σ) : after feed s [] = s := rfl

@[simp] lemma messages_nil (s : σ) : messages feed s [] = [] := rfl

/-- The state behind a part, and then behind the rest. -/
theorem after_append (s : σ) (symbols symbols' : List β) :
    after feed s (symbols ++ symbols') = after feed (after feed s symbols) symbols' := by
  induction symbols generalizing s with
  | nil => rfl
  | cons symbol symbols ih => exact ih _

/-- The messages of a part, and then those of the rest. -/
theorem messages_append (s : σ) (symbols symbols' : List β) :
    messages feed s (symbols ++ symbols') =
      messages feed s symbols ++ messages feed (after feed s symbols) symbols' := by
  induction symbols generalizing s with
  | nil => rfl
  | cons symbol symbols ih =>
    rw [List.cons_append, messages, messages, ih, List.append_assoc]
    rfl

/-- A prefix has a prefix of the messages. -/
theorem messages_prefix (s : σ) {symbols symbols' : List β} (h : symbols <+: symbols') :
    messages feed s symbols <+: messages feed s symbols' := by
  obtain ⟨rest, rfl⟩ := h
  rw [messages_append]
  exact List.prefix_append _ _

namespace Decodes

variable {s s' s'' : σ} {symbols symbols' : List β} {ms ms' : List ω}

/-- Of no symbol nothing is made. -/
lemma nil (s : σ) : Decodes feed s [] s [] := ⟨rfl, rfl⟩

/-- One symbol. -/
lemma single {symbol : β} {answer : Option ω} (h : feed s symbol = (s', answer)) :
    Decodes feed s [symbol] s' answer.toList := by
  refine ⟨?_, ?_⟩
  · rw [after, h, after_nil]
  · rw [messages, h, messages_nil, List.append_nil]

/-- A part, and then the rest. -/
theorem append (h : Decodes feed s symbols s' ms) (h' : Decodes feed s' symbols' s'' ms') :
    Decodes feed s (symbols ++ symbols') s'' (ms ++ ms') := by
  refine ⟨?_, ?_⟩
  · rw [after_append, h.after_eq, h'.after_eq]
  · rw [messages_append, h.messages_eq, h.after_eq, h'.messages_eq]

end Decodes

namespace Traces

variable {I : σ → List β → Prop} {P : ω → List β → Prop}

/-- What every symbol keeps is kept by a stream. -/
theorem after (h : Traces feed I P) {s : σ} {fed : List β} (hstart : I s fed) (symbols : List β) :
    I (after feed s symbols) (fed ++ symbols) := by
  induction symbols generalizing s fed with
  | nil =>
    rw [List.append_nil]
    exact hstart
  | cons symbol symbols ih =>
    have hrest := ih (h.next symbol hstart)
    rw [List.append_assoc] at hrest
    exact hrest

/-- Every message of a stream is a message of a prefix of it. -/
theorem of_mem (h : Traces feed I P) {s : σ} {fed : List β} (hstart : I s fed) {symbols : List β}
    {m : ω} (hm : m ∈ messages feed s symbols) : ∃ part, part <+: symbols ∧ P m (fed ++ part) := by
  induction symbols generalizing s fed with
  | nil => exact absurd hm List.not_mem_nil
  | cons symbol symbols ih =>
    rw [messages, List.mem_append, Option.mem_toList] at hm
    rcases hm with hm | hm
    · exact ⟨[symbol], List.prefix_append [symbol] symbols, h.message symbol hstart hm⟩
    · obtain ⟨part, hpart, hP⟩ := ih (h.next symbol hstart) hm
      refine ⟨symbol :: part, (List.cons_prefix_cons).mpr ⟨rfl, hpart⟩, ?_⟩
      rwa [List.append_assoc] at hP

end Traces

end StreamDecoder
