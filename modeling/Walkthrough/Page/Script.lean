/-!
# The page script

The script that is put into a page once before any of its elements is looked
for. It finds fields by label, finds and presses controls by caption, and
looks for a phrase in the text shown; expressions reach it under one global
name. To this library it is a constant text.
-/

namespace Walkthrough.Page

/-- The lines of the script. -/
def scriptLines : List String := [
    "",
    "const norm = s => (s || '').replace(/\\s+/g, ' ').trim();",
    "const eqOrContains = (text, target) => text === target || text.includes(target);",
    "const CONTROL_TAG = /^(INPUT|TEXTAREA|SELECT)$/i;",
    "const CONTROLS = 'input,textarea,select';",
    "const BUTTONS = 'button,[role=button]';",
    "const INPUT_BUTTONS = 'input[type=submit],input[type=button],input[type=reset]';",
    "",
    "const xpathLiteral = s => \x7b",
    "  if (!s.includes(\"'\")) return \"'\" + s + \"'\";",
    "  if (!s.includes('\"')) return '\"' + s + '\"';",
    "  return \"concat('\" + s.split(\"'\").join(\"', \\\"'\\\", '\") + \"')\";",
    "\x7d;",
    "",
    "const labelFinders = [",
    "  // <label> text -> for=, nested control, or the next sibling control",
    "  target => \x7b",
    "    for (const lb of document.querySelectorAll('label')) \x7b",
    "      if (!eqOrContains(norm(lb.textContent), target)) continue;",
    "      const id = lb.getAttribute('for');",
    "      if (id) \x7b",
    "        const byId = document.getElementById(id);",
    "        if (byId) return byId;",
    "      \x7d",
    "      const nested = lb.querySelector(CONTROLS);",
    "      if (nested) return nested;",
    "      let el = lb.nextElementSibling;",
    "      while (el && !CONTROL_TAG.test(el.tagName)) el = el.nextElementSibling;",
    "      if (el) return el;",
    "    \x7d",
    "    return null;",
    "  \x7d,",
    "  target => Array.from(document.querySelectorAll('[aria-label]'))",
    "    .find(e => norm(e.getAttribute('aria-label')) === target) || null,",
    "  target => Array.from(document.querySelectorAll(CONTROLS))",
    "    .find(e => \x7b",
    "      const placeholder = e.getAttribute('placeholder');",
    "      return placeholder !== null && eqOrContains(norm(placeholder), target);",
    "    \x7d) || null,",
    "];",
    "",
    "const press = el => () => el.click();",
    "",
    "const clickFinders = [",
    "  // exact: normalize-space(.) compares the full string value, nested markup included",
    "  caption => \x7b",
    "    const lit = xpathLiteral(caption);",
    "    const xp = \"//button[normalize-space(.)=\" + lit + \"]\"",
    "             + \" | //*[@role='button' and normalize-space(.)=\" + lit + \"]\";",
    "    const snap = document.evaluate(xp, document, null, XPathResult.ORDERED_NODE_SNAPSHOT_TYPE, null);",
    "    return snap.snapshotLength ? press(snap.snapshotItem(0)) : null;",
    "  \x7d,",
    "  caption => \x7b",
    "    const buttons = Array.from(document.querySelectorAll(BUTTONS));",
    "    const el = buttons.find(e => norm(e.textContent) === caption)",
    "            || buttons.find(e => norm(e.textContent).includes(caption));",
    "    return el ? press(el) : null;",
    "  \x7d,",
    "  caption => \x7b",
    "    const inputs = Array.from(document.querySelectorAll(INPUT_BUTTONS));",
    "    const el = inputs.find(e => [e.value, e.name, e.title]",
    "      .some(v => v && eqOrContains(norm(v), caption)));",
    "    return el ? press(el) : null;",
    "  \x7d,",
    "  caption => \x7b",
    "    if (!document.body) return null;",
    "    const all = Array.from(document.body.querySelectorAll('*'));",
    "    // wrappers carry their children's text; take the innermost element of a match set",
    "    const innermost = list => list.find(e => !list.some(o => o !== e && e.contains(o)));",
    "    const exact = innermost(all.filter(e => norm(e.textContent) === caption));",
    "    if (exact) return press(exact);",
    "    const holder = innermost(all.filter(e => norm(e.textContent).includes(caption)));",
    "    return holder ? press(holder) : null;",
    "  \x7d,",
    "  () => \x7b",
    "    const active = document.activeElement;",
    "    if (active && active.form && typeof active.form.requestSubmit === 'function') \x7b",
    "      return () => active.form.requestSubmit();",
    "    \x7d",
    "    const form = document.querySelector('form');",
    "    if (form && typeof form.requestSubmit === 'function') return () => form.requestSubmit();",
    "    return null;",
    "  \x7d,",
    "  () => \x7b",
    "    const active = document.activeElement;",
    "    if (!active) return null;",
    "    return () => active.dispatchEvent(new KeyboardEvent('keydown', \x7b",
    "      key: 'Enter', code: 'Enter', keyCode: 13, which: 13, bubbles: true",
    "    \x7d));",
    "  \x7d,",
    "];",
    "",
    "const byLabel = label => \x7b",
    "  const target = norm(label);",
    "  for (const find of labelFinders) \x7b",
    "    const el = find(target);",
    "    if (el) return el;",
    "  \x7d",
    "  return null;",
    "\x7d;",
    "",
    "const clickTier = caption => \x7b",
    "  const target = norm(caption);",
    "  for (let i = 0; i < clickFinders.length; i++) \x7b",
    "    const action = clickFinders[i](target);",
    "    if (action) return \x7b tier: i + 1, action \x7d;",
    "  \x7d",
    "  return null;",
    "\x7d;",
    "",
    "const setValue = (el, value) => \x7b",
    "  const descriptor = Object.getOwnPropertyDescriptor(Object.getPrototypeOf(el), 'value');",
    "  if (descriptor && descriptor.set) descriptor.set.call(el, value);",
    "  else el.value = value;",
    "\x7d;",
    "",
    "window.__mdw = \x7b",
    "  norm,",
    "  byLabel,",
    "  clickByText(caption) \x7b",
    "    const hit = clickTier(caption);",
    "    if (!hit) return false;",
    "    hit.action();",
    "    return true;",
    "  \x7d,",
    "  clickTier(caption) \x7b",
    "    const hit = clickTier(caption);",
    "    return hit ? hit.tier : 0;",
    "  \x7d,",
    "  visibleTextExists(text) \x7b",
    "    return norm(document.body ? document.body.innerText : '').includes(norm(text));",
    "  \x7d,",
    "  typeByLabel(label, value) \x7b",
    "    const el = byLabel(label);",
    "    if (!el) return false;",
    "    el.focus();",
    "    if ('value' in el) setValue(el, value);",
    "    el.dispatchEvent(new Event('input', \x7b bubbles: true \x7d));",
    "    el.dispatchEvent(new Event('change', \x7b bubbles: true \x7d));",
    "    return true;",
    "  \x7d",
    "\x7d;",
    ""]

/-- **The script put into a page.** -/
def script : String := "\n".intercalate scriptLines

end Walkthrough.Page
