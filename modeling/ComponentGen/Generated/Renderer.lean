import ComponentGen.Generated.ComponentModule
import ComponentGen.Template.Basic
/-!
# The renderer module

The module that renders compositions at run time. It imports every generated component and
registers each under its name in lower case; imports and registry are in ascending order of the
names, so they depend on the set of components only.
-/

namespace ComponentGen.Generated.Renderer

/-- The text of the renderer module around its imports and its registry. -/
def template : Template String := [
  .text "import React from 'react';\n",
  .hole "imports",
  .text (String.join [
    "\n",
    "\n",
    "const componentMap: Record<string, React.ComponentType<any>> = \x7b\n"]),
  .hole "registry",
  .text (String.join [
    "\n",
    "\x7d;\n",
    "\n",
    "export interface ComponentData \x7b\n",
    "  component: string;\n",
    "  styleMap?: Record<string, any>;\n",
    "  data?: Record<string, any>;\n",
    "  children?: ComponentData[];\n",
    "\x7d\n",
    "\n",
    "export interface RendererProps \x7b\n",
    "  data: ComponentData[];\n",
    "\x7d\n",
    "\n",
    "export function renderComponent(item: ComponentData): React.ReactNode \x7b\n",
    "  const \x7b component, styleMap, data, children \x7d = item;\n",
    "  const Component = componentMap[component.toLowerCase()];\n",
    "\n",
    "  if (!Component) \x7b\n",
    "    console.warn(`Component \"$\x7bcomponent\x7d\" not found in component map`);\n",
    "    return null;\n",
    "  \x7d\n",
    "\n",
    "  const props: Record<string, unknown> = \x7b\x7d;\n",
    "  if (styleMap) \x7b\n",
    "    props.styleMap = styleMap;\n",
    "  \x7d\n",
    "  if (data) \x7b\n",
    "    props.data = data;\n",
    "  \x7d\n",
    "\n",
    "  if (Array.isArray(children) && children.length > 0) \x7b\n",
    "    return (\n",
    "      <Component \x7b...props\x7d>\n",
    "        \x7bchildren.map((child, index) => (\n",
    "          <React.Fragment key=\x7bindex\x7d>\x7brenderComponent(child)\x7d</React.Fragment>\n",
    "        ))\x7d\n",
    "      </Component>\n",
    "    );\n",
    "  \x7d\n",
    "\n",
    "  return <Component \x7b...props\x7d />;\n",
    "\x7d\n",
    "\n",
    "export const Renderer = (props: RendererProps) => \x7b\n",
    "  const \x7b data \x7d = props;\n",
    "  if (!Array.isArray(data)) \x7b\n",
    "    return null;\n",
    "  \x7d\n",
    "\n",
    "  return (\n",
    "    <>\n",
    "      \x7bdata.map((item, index) => (\n",
    "        <React.Fragment key=\x7bindex\x7d>\x7brenderComponent(item)\x7d</React.Fragment>\n",
    "      ))\x7d\n",
    "    </>\n",
    "  );\n",
    "\x7d;\n"])]

/-- The imports: the common stylesheet, if there is one, and every component. -/
def imports (components : List String) (hasStylesheet : Bool) : List Import :=
  (if hasStylesheet then [.stylesheet "./style.css"] else []) ++
  (sortedDistinct components).map .sibling

/-- The entries of the registry: the name in lower case and the component. -/
def registry (components : List String) : List (String × String) :=
  (sortedDistinct components).map fun name => (Text.lowerCase name, name)

/-- The line of a registry entry. -/
def registryLine (entry : String × String) : String :=
  "  " ++ JavaScript.quote entry.1 ++ ": " ++ entry.2 ++ ","

/-- The value of each variable of the template. -/
def values (components : List String) (hasStylesheet : Bool) (hole : String) : String :=
  if hole = "imports" then "\n".intercalate (importLines (imports components hasStylesheet))
  else "\n".intercalate ((registry components).map registryLine)

/-- The source of the renderer module. -/
def text (components : List String) (hasStylesheet : Bool) : String :=
  template.expand (values components hasStylesheet)

end ComponentGen.Generated.Renderer
