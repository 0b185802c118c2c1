/-!
Style marks: the text between an opening and a closing mark is shown in bold and in a colour.
-/
namespace Microcode.Markup

def magenta (s : String) : String := s!"[bold magenta]{s}[/bold magenta]"

def white (s : String) : String := s!"[bold white]{s}[/bold white]"

def blue (s : String) : String := s!"[bold blue]{s}[/bold blue]"

def green (s : String) : String := s!"[bold green]{s}[/bold green]"

def red (s : String) : String := s!"[bold red]{s}[/bold red]"

end Microcode.Markup
