import Inlay.Proofs.Markup.Reprint
import Inlay.Proofs.Text.Escape

/-!
# Printing into a buffer

`Arena.html` reads the tree off the arena and joins texts. `Arena.serialize?` does without the tree:
it goes down from a node, writes bytes behind those in a buffer as it meets the nodes, and reads the
buffer as UTF-8 in the end. Two things could go wrong. The way down could be too long, and the bytes
could be no UTF-8.

* `Forest.write?_eq`: in a forest the way down ends, and what is written is the markup of the node.
* `serialized_of_reachable`: in every reachable arena neither goes wrong, for any id. What is
  escaped on the way is what it should be.
-/

namespace Inlay

namespace Markup

/-- Writes the attributes of a start tag. -/
def writeAttrs (out : ByteArray) : List (String × String) → ByteArray
  | [] => out
  | (name, value) :: rest =>
    let out := out ++ " ".toUTF8 ++ name.toUTF8 ++ "=\"".toUTF8
    writeAttrs (Text.escapeOnto out value.toUTF8 ++ "\"".toUTF8) rest

/-- Writes a node of that kind; `content` writes its children. -/
def writeNode (kind : NodeKind) (content : ByteArray → Option ByteArray) (out : ByteArray) :
    Option ByteArray :=
  match kind with
  | .text s => some (Text.escapeOnto out s.toUTF8)
  | .comment s => some (out ++ "<!--".toUTF8 ++ s.toUTF8 ++ "-->".toUTF8)
  | .fragment => content out
  | .element e =>
    let out := writeAttrs (out ++ "<".toUTF8 ++ e.tag.toUTF8) e.attrs ++ ">".toUTF8
    if isVoid e.tag then some out
    else (content out).map fun out => out ++ "</".toUTF8 ++ e.tag.toUTF8 ++ ">".toUTF8

/-- The loop over the attributes adds `attrsHtml attrs` to what is written. -/
theorem writeAttrs_eq (attrs : List (String × String)) (out : ByteArray) :
    writeAttrs out attrs = out ++ (attrsHtml attrs).toUTF8 := by
  induction attrs generalizing out with
  | nil => exact ByteArray.append_empty.symm
  | cons attr rest ih =>
    obtain ⟨name, value⟩ := attr
    rw [writeAttrs, ih, Text.escapeOnto_eq_append, Text.escapeBytes_toUTF8, attrsHtml]
    simp only [Text.toUTF8_append, ByteArray.append_assoc]

/-- Whatever the node is, what is written is its markup, if `content` writes that of its
children. -/
theorem writeNode_eq (kind : NodeKind) {content : ByteArray → Option ByteArray} {cs : List Tree}
    (hcontent : ∀ out, content out = some (out ++ (Tree.htmlAll cs).toUTF8)) (out : ByteArray) :
    writeNode kind content out = some (out ++ (Tree.node kind cs).html.toUTF8) := by
  cases kind with
  | text s => rw [writeNode, Text.escapeOnto_eq_append, Text.escapeBytes_toUTF8, Tree.html]
  | comment s =>
    rw [writeNode, Tree.html]
    simp only [Text.toUTF8_append, ByteArray.append_assoc]
  | fragment => rw [writeNode, hcontent, Tree.html]
  | element e =>
    have hstart : writeAttrs (out ++ "<".toUTF8 ++ e.tag.toUTF8) e.attrs ++ ">".toUTF8 =
        out ++ (startTagHtml e).toUTF8 := by
      rw [writeAttrs_eq, startTagHtml]
      simp only [Text.toUTF8_append, ByteArray.append_assoc]
    rw [writeNode, hstart, Tree.html]
    split
    · rfl
    · rw [hcontent, Option.map_some]
      simp only [Text.toUTF8_append, ByteArray.append_assoc]

end Markup

namespace Arena

/-- Writes the node and what is below it behind what `out` has; nothing for a freed node, and none
if there are more than `fuel` levels. -/
def writeWithin (a : Arena) : Nat → NodeId → ByteArray → Option ByteArray
  | 0, _, _ => none
  | fuel + 1, id, out =>
    match a.get? id with
    | none => some out
    | some node =>
      Markup.writeNode node.kind
        (fun out => node.children.foldlM (fun out child => a.writeWithin fuel child out) out) out

/-- No tree has more levels than the arena has slots. -/
def write? (a : Arena) (id : NodeId) (out : ByteArray) : Option ByteArray :=
  a.writeWithin (a.slots.size + 1) id out

/-- What is written, as a text; none if the way down is too long, or if it is no UTF-8. -/
def serialize? (a : Arena) (id : NodeId) : Option String :=
  (a.write? id .empty).bind String.fromUTF8?

variable {a : Arena}

mutual

/-- With levels for `t.size` nodes, what is written is the markup of the tree `t` that the way down
goes through. -/
theorem Shows.writeWithin_eq : ∀ {t : Tree} {id : NodeId} {fuel : Nat}, a.Shows id t →
    t.size ≤ fuel → ∀ out, a.writeWithin fuel id out = some (out ++ t.html.toUTF8)
  | .node _ cs, id, fuel, h, hfuel, out => by
    obtain ⟨node, hget, rfl, hcs⟩ := shows_node.mp h
    rw [Tree.size] at hfuel
    obtain ⟨fuel, rfl⟩ := Nat.exists_eq_add_of_le' (Nat.le_trans (Nat.succ_pos _) hfuel)
    rw [writeWithin, hget]
    exact Markup.writeNode_eq _ (hcs.writeWithin_eq (Nat.le_of_succ_le_succ hfuel)) out

theorem ShowsAll.writeWithin_eq : ∀ {ts : List Tree} {ids : List NodeId} {fuel : Nat},
    a.ShowsAll ids ts → Tree.sizeAll ts ≤ fuel → ∀ out,
    ids.foldlM (fun out child => a.writeWithin fuel child out) out =
      some (out ++ (Tree.htmlAll ts).toUTF8)
  | [], ids, fuel, h, _, out => by
    rw [showsAll_nil_iff.mp h, List.foldlM_nil, Tree.htmlAll]
    exact congrArg some ByteArray.append_empty.symm
  | t :: ts, ids, fuel, h, hfuel, out => by
    obtain ⟨id, rest, rfl, ht, hts⟩ := showsAll_cons_iff.mp h
    rw [Tree.sizeAll] at hfuel
    rw [List.foldlM_cons, ht.writeWithin_eq (by omega), Option.bind_eq_bind, Option.bind_some,
      hts.writeWithin_eq (by omega), Tree.htmlAll]
    simp only [Text.toUTF8_append, ByteArray.append_assoc]

end

/-- The way down ends in a forest, and then `a.html id` has been written behind `out`. -/
theorem Forest.write?_eq (hf : a.Forest) (id : NodeId) (out : ByteArray) :
    a.write? id out = some (out ++ (a.html id).toUTF8) := by
  cases hget : a.get? id with
  | none =>
    have hhtml : a.html id = "" := by
      rw [html, tree?, treeWithin, hget]
    rw [write?, writeWithin, hget, hhtml]
    exact congrArg some ByteArray.append_empty.symm
  | some node =>
    obtain ⟨t, ht⟩ := hf.exists_shows (isLive_iff.mpr ⟨node, hget⟩)
    rw [write?, ht.writeWithin_eq (Nat.le_succ_of_le (ht.size_le hf)), html_of_shows hf ht]

theorem Forest.serialize?_eq (hf : a.Forest) (id : NodeId) :
    a.serialize? id = some (a.html id) := by
  rw [serialize?, hf.write?_eq, Option.bind_some, ByteArray.empty_append, Text.fromUTF8?_toUTF8]

/-- **Escaping keeps everything, and printing never fails.** The bytes that are written for a text
are UTF-8; they are the text with the five characters replaced, and the text can be had back. Two
texts can be escaped one after the other. In every reachable arena, for any id and whatever the
names, texts and values are, the way down ends and leaves UTF-8 in the buffer: the markup of the
node. -/
theorem serialized_of_reachable :
    (∀ s, String.fromUTF8? (Text.escapeBytes s.toUTF8) = some (Text.escape s) ∧
      Text.Escaped s (Text.escape s) ∧
      ∀ out, Text.escapeOnto out s.toUTF8 = out ++ Text.escapeBytes s.toUTF8) ∧
    (∀ s t, Text.escape (s ++ t) = Text.escape s ++ Text.escape t ∧
      Text.escapeBytes (s ++ t).toUTF8 = Text.escapeBytes s.toUTF8 ++ Text.escapeBytes t.toUTF8) ∧
    ∀ a, Reachable a → ∀ id, (∀ out, a.write? id out = some (out ++ (a.html id).toUTF8)) ∧
      a.serialize? id = some (a.html id) := by
  refine ⟨fun s => ⟨?_, ?_, fun out => ?_⟩, fun s t => ⟨?_, ?_⟩, fun a ha id => ⟨?_, ?_⟩⟩
  · exact Text.fromUTF8?_escapeBytes s
  · exact Text.escaped_escape s
  · exact Text.escapeOnto_eq_append out _
  · exact Text.escape_append s t
  · rw [Text.toUTF8_append, Text.escapeBytes_append]
  · exact ha.sound.forest.write?_eq id
  · exact ha.sound.forest.serialize?_eq id

/-- Names that need care as much as texts and values, and a text that was freed. -/
theorem serialized_of_odd_names :
    let a := [Op.newElement "a<é" [("\"", "x\"y"), ("b", "'😀")], .newText "<x> & 'y'",
      .newComment "-->", .newText "z", .appendChild ⟨0, 0⟩ ⟨1, 0⟩, .appendChild ⟨0, 0⟩ ⟨2, 0⟩,
      .appendChild ⟨0, 0⟩ ⟨3, 0⟩, .free ⟨3, 0⟩].foldl Op.after empty
    Reachable a ∧
      a.serialize? ⟨0, 0⟩ = some ("<a<é \"=\"x&quot;y\" b=\"&#39;😀\">" ++
        "&lt;x&gt; &amp; &#39;y&#39;<!---->--></a<é>") ∧
      a.serialize? ⟨3, 0⟩ = some "" := by
  intro a
  have ha : Reachable a := Reachable.empty.foldl _ (by decide +kernel)
  obtain ⟨-, -, hserialize⟩ := serialized_of_reachable
  have hlive : a.html ⟨0, 0⟩ = "<a<é \"=\"x&quot;y\" b=\"&#39;😀\">" ++
      "&lt;x&gt; &amp; &#39;y&#39;<!---->--></a<é>" := by
    decide +kernel
  have hfreed : a.html ⟨3, 0⟩ = "" := by
    decide +kernel
  refine ⟨ha, ?_, ?_⟩
  · rw [(hserialize a ha ⟨0, 0⟩).2, hlive]
  · rw [(hserialize a ha ⟨3, 0⟩).2, hfreed]

end Arena

end Inlay
