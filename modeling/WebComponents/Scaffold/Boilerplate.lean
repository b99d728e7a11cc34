import WebComponents.Naming
import WebComponents.Path.Basic
import WebComponents.Scaffold.FileKind
import WebComponents.Typings.Framework

/-!
# The content of generated files

Each kind of file has a fixed text, line by line, in which the tag and the class named after it are
filled in.  The files refer to each other: the component to its stylesheet, and the spec test to the
class of the component in the directory above.
-/

namespace WebComponents.Scaffold

/-- The package with the tools for tests. -/
def testingPackage : String := Typings.frameworkPackage ++ "/testing"

/-- The directory for tests inside a component's directory. -/
def testDirectory : String := "test"

/-! ## Lines -/

/-- The lines of the component. -/
def componentLines (tag : String) (withStylesheet : Bool) : List String :=
  ["import \x7b Component, Host, h \x7d from '" ++ Typings.frameworkPackage ++ "';",
    "",
    "@Component(\x7b",
    "  tag: '" ++ tag ++ "',"] ++
  (if withStylesheet then ["  styleUrl: '" ++ tag ++ ".css',"] else []) ++
  ["  shadow: true,",
    "\x7d)",
    "export class " ++ Naming.pascalCase tag ++ " \x7b",
    "",
    "  render() \x7b",
    "    return (",
    "      <Host>",
    "        <slot></slot>",
    "      </Host>",
    "    );",
    "  \x7d",
    "",
    "\x7d"]

/-- The lines of the stylesheet. -/
def stylesheetLines : List String :=
  [":host \x7b",
    "  display: block;",
    "\x7d"]

/-- The lines of the spec test. -/
def specTestLines (tag : String) : List String :=
  ["import \x7b newSpecPage \x7d from '" ++ testingPackage ++ "';",
    "import \x7b " ++ Naming.pascalCase tag ++ " \x7d from '../" ++ tag ++ "';",
    "",
    "describe('" ++ tag ++ "', () => \x7b",
    "  it('renders', async () => \x7b",
    "    const page = await newSpecPage(\x7b",
    "      components: [" ++ Naming.pascalCase tag ++ "],",
    "      html: `<" ++ tag ++ "></" ++ tag ++ ">`,",
    "    \x7d);",
    "    expect(page.root).toEqualHtml(`",
    "      <" ++ tag ++ ">",
    "        <mock:shadow-root>",
    "          <slot></slot>",
    "        </mock:shadow-root>",
    "      </" ++ tag ++ ">",
    "    `);",
    "  \x7d);",
    "\x7d);"]

/-- The lines of the end-to-end test. -/
def endToEndTestLines (tag : String) : List String :=
  ["import \x7b newE2EPage \x7d from '" ++ testingPackage ++ "';",
    "",
    "describe('" ++ tag ++ "', () => \x7b",
    "  it('renders', async () => \x7b",
    "    const page = await newE2EPage();",
    "    await page.setContent('<" ++ tag ++ "></" ++ tag ++ ">');",
    "",
    "    const element = await page.find('" ++ tag ++ "');",
    "    expect(element).toHaveClass('hydrated');",
    "  \x7d);",
    "\x7d);"]

/-- The lines of a file. -/
def boilerplateLines (tag : String) (withStylesheet : Bool) : FileKind → List String
  | .component => componentLines tag withStylesheet
  | .stylesheet => stylesheetLines
  | .specTest => specTestLines tag
  | .endToEndTest => endToEndTestLines tag

/-- The text of a file. -/
def boilerplate (tag : String) (kind : FileKind) (withStylesheet : Bool) : String :=
  String.join ((boilerplateLines tag withStylesheet kind).map fun line => line ++ "\n")

/-! ## Places -/

/-- The place of a file under the component's directory. -/
def filePath (directory : Path) (tag : String) (kind : FileKind) : Path :=
  let name : Path := ⟨tag ++ "." ++ kind.extension⟩
  if kind.isTest then (directory.join ⟨testDirectory⟩).join name else directory.join name

end WebComponents.Scaffold
