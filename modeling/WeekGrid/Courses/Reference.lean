import WeekGrid.Timetable.Lesson

/-!
The reference table of the computer science programme, semester by semester. Cells carry only the code;
the course name comes from here unless another table is given.
-/
namespace WeekGrid.Courses

open Timetable (CourseTable)

def firstSemester : CourseTable := [
  ("R1.01", "Initiation au développement"),
  ("R1.02", "Développement d'interfaces web"),
  ("R1.03", "Introduction à l'architecture des ordinateurs"),
  ("R1.04", "Introduction aux systèmes d'exploitation et à leur fonctionnement"),
  ("R1.05", "Introduction aux bases de données et SQL"),
  ("R1.06", "Mathématiques discrètes"),
  ("R1.07", "Outils mathématiques fondamentaux"),
  ("R1.08", "Gestion de projet et des organisations"),
  ("R1.09", "Économie durable et numérique"),
  ("R1.10", "Anglais pour l'informatique"),
  ("R1.11", "Bases de la communication"),
  ("R1.12", "Projet professionnel et personnel"),
  ("S1.01", "Implémentation d'un besoin client"),
  ("S1.02", "Comparaison d'approches algorithmiques"),
  ("S1.03", "Installation d'un poste pour le développement"),
  ("S1.04", "Création d'une base de données"),
  ("S1.05", "Recueil de besoins"),
  ("S1.06", "Découverte de l'environnement économique et écologique"),
  ("P1.01", "Portfolio")]

def secondSemester : CourseTable := [
  ("R2.01", "Développement orienté objets"),
  ("R2.02", "Développement d'applications avec IHM"),
  ("R2.03", "Qualité de développement"),
  ("R2.04", "Communication et fonctionnement bas niveau"),
  ("R2.05", "Introduction aux services réseaux"),
  ("R2.06", "Exploitation d'une base de données"),
  ("R2.07", "Graphes"),
  ("R2.08", "Outils numériques pour les statistiques descriptives"),
  ("R2.09", "Méthodes numériques"),
  ("R2.10", "Introduction à la gestion des systèmes d'information"),
  ("R2.11", "Introduction au droit"),
  ("R2.12", "Anglais d'usage courant et technique"),
  ("R2.13", "Communication technique"),
  ("R2.14", "Projet professionnel et personnel"),
  ("S2.01", "Développement d'une application"),
  ("S2.02", "Exploration algorithmique d'un problème"),
  ("S2.03", "Installation de services réseau"),
  ("S2.04", "Exploitation d'une base de données"),
  ("S2.05", "Gestion d'un projet"),
  ("S2.06", "Organisation d'un travail d'équipe"),
  ("P2.01", "Portfolio")]

def thirdSemester : CourseTable := [
  ("R3.01", "Développement web"),
  ("R3.02", "Développement efficace"),
  ("R3.03", "Analyse"),
  ("R3.04", "Qualité de développement"),
  ("R3.05", "Programmation système"),
  ("R3.06", "Architecture des réseaux"),
  ("R3.07", "SQL dans un langage de programmation"),
  ("R3.08", "Probabilités"),
  ("R3.09", "Cryptographie et sécurité"),
  ("R3.10", "Management des systèmes d'information"),
  ("R3.11", "Droit des contrats et du numérique"),
  ("R3.12", "Anglais professionnel"),
  ("R3.13", "Communication professionnelle"),
  ("R3.14", "Projet personnel et professionnel"),
  ("S3.01", "Développement d'une application"),
  ("P3.01", "Portfolio")]

def fourthSemester : CourseTable := [
  ("R4.01", "Architecture logicielle"),
  ("R4.02", "Qualité de développement"),
  ("R4.03", "Qualité et au-delà du relationnel"),
  ("R4.04", "Méthodes d'optimisation"),
  ("R4.05", "Anglais"),
  ("R4.06", "Communication interne"),
  ("R4.07", "Projet personnel et professionnel"),
  ("R4.A.08", "Virtualisation"),
  ("R4.A.09", "Management avancé des systèmes d'information"),
  ("R4.A.10", "Complément web"),
  ("R4.A.11", "Développement pour applications mobiles"),
  ("R4.A.12", "Automates et langages"),
  ("S4.01", "Stage"),
  ("S4.A.01", "Développement d'une application complexe"),
  ("P4.01", "Portfolio")]

def reference : CourseTable := firstSemester ++ secondSemester ++ thirdSemester ++ fourthSemester

end WeekGrid.Courses
